/-
`TdxQuote.parse`: what is appraised of a TDX quote (DCAP v4).

Lengths are nested four deep, and each is declared by the quote: the signature
section, in it the certification data of type 6, in that the authentication
data of the quoting enclave and the chain of type 5. What is declared is cut
out first and read after that, so nothing outside the section is read as part
of it (`parse_eq`), and a field has its length because the part it is cut from
was long enough.
-/
import Ca2a.Errors
import Ca2a.Py.Buffer

namespace Ca2a

open Py

/-! ## `struct` -/

/-- The buffer check of `struct.unpack_from`. -/
def requireBuffer (size : Nat) (buf : Bytes) (offset : Nat) : Result Unit :=
  if offset + size ≤ buf.length then .ok ()
  else
    .error (.builtin .structError
      (lit "unpack_from requires a buffer of at least " ++ decimal (offset + size) ++ lit " bytes for unpacking " ++
        decimal size ++ lit " bytes at offset " ++ decimal offset ++ lit " (actual buffer size is " ++
        decimal buf.length ++ lit ")"))

/-- `struct.unpack_from("<H", buf, offset)` -/
def unpackH (buf : Bytes) (offset : Nat) : Result Nat := do
  requireBuffer 2 buf offset
  .ok (ofLittle (slice buf offset (offset + 2)))

/-- `struct.unpack_from("<I", buf, offset)` -/
def unpackI (buf : Bytes) (offset : Nat) : Result Nat := do
  requireBuffer 4 buf offset
  .ok (ofLittle (slice buf offset (offset + 4)))

/-- `struct.unpack_from("<HI", buf, offset)` -/
def unpackHI (buf : Bytes) (offset : Nat) : Result (Nat × Nat) := do
  requireBuffer 6 buf offset
  .ok (ofLittle (slice buf offset (offset + 2)), ofLittle (slice buf (offset + 2) (offset + 2 + 4)))

/-- `struct.unpack_from("<HHI", buf, offset)` -/
def unpackHHI (buf : Bytes) (offset : Nat) : Result (Nat × Nat × Nat) := do
  requireBuffer 8 buf offset
  .ok (ofLittle (slice buf offset (offset + 2)), ofLittle (slice buf (offset + 2) (offset + 2 + 2)),
    ofLittle (slice buf (offset + 2 + 2) (offset + 2 + 2 + 4)))

/-! ## The parser -/

/-- `HEADER_LEN` -/
def headerLen : Nat := 48

/-- `TD_REPORT_LEN` -/
def tdReportLen : Nat := 584

/-- `SIGNED_LEN` -/
def signedLen : Nat := headerLen + tdReportLen

/-- `MRTD_OFFSET` -/
def mrtdOffset : Nat := headerLen + 136

/-- `MRTD_LEN` -/
def mrtdLen : Nat := 48

/-- `REPORT_DATA_OFFSET` -/
def reportDataOffset : Nat := headerLen + 520

/-- `REPORT_DATA_LEN` -/
def TdxQuote.reportDataLen : Nat := 64

/-- `QUOTE_SIG_LEN` -/
def quoteSigLen : Nat := 64

/-- `ATT_KEY_LEN` -/
def attKeyLen : Nat := 64

/-- `QE_REPORT_LEN` -/
def qeReportLen : Nat := 384

/-- `CERT_TYPE_PCK_CHAIN` -/
def certTypePckChain : Nat := 5

/-- `CERT_TYPE_QE_REPORT` -/
def certTypeQeReport : Nat := 6

/-- `CERT_DATA_HEADER_LEN` -/
def certDataHeaderLen : Nat := 6

/-- `TdxQuote`. `Cert` is the certificate of the PEM loader. -/
structure TdxQuote (Cert : Type) where
  version : Nat
  teeType : Nat
  measurement : Bytes
  reportData : Bytes
  signedBody : Bytes
  quoteSignature : Bytes
  attestationKey : Bytes
  qeReport : Bytes
  qeReportSignature : Bytes
  qeAuthData : Bytes
  pckChain : List Cert

/-- What `parse` reads of the certification data. -/
structure QeData (Cert : Type) where
  qeReport : Bytes
  qeReportSignature : Bytes
  qeAuthData : Bytes
  pckChain : List Cert

/-- What `parse` reads of the signature section. -/
structure SignatureData (Cert : Type) where
  quoteSignature : Bytes
  attestationKey : Bytes
  qe : QeData Cert

section
variable {Cert : Type} (loadPem : Bytes → Result (List Cert))

/-- The part of `parse` that reads the certification data. `loadPem` is `x509.load_pem_x509_certificates`. -/
def parseCertData (certData : Bytes) : Result (QeData Cert) :=
  if certData.length < qeReportLen + quoteSigLen + 2 + certDataHeaderLen then
    raise .attestationFailed (lit "QE certification data is truncated")
  else do
    let inner := 0
    let qeReport := slice certData inner (inner + qeReportLen)
    let inner := inner + qeReportLen
    let qeReportSig := slice certData inner (inner + quoteSigLen)
    let inner := inner + quoteSigLen
    let qeAuthLen ← unpackH certData inner
    let inner := inner + 2
    if inner + qeAuthLen + certDataHeaderLen > certData.length then
      raise .attestationFailed (lit "QE authentication data is truncated")
    else do
      let qeAuth := slice certData inner (inner + qeAuthLen)
      let inner := inner + qeAuthLen
      let (certType, certLen) ← unpackHI certData inner
      let inner := inner + certDataHeaderLen
      if inner + certLen > certData.length then
        raise .attestationFailed (lit "PCK certificate chain is truncated")
      else if certType ≠ certTypePckChain then
        raise .attestationFailed (lit "unsupported QE certification data type")
          (some (lit "type=" ++ decimal certType ++ lit ", expected " ++ decimal certTypePckChain ++ lit " (PCK chain)"))
      else do
        let chain ← catchBuiltin ExcKind.isValueError (loadPem (slice certData inner (inner + certLen))) fun exc =>
          raise .attestationFailed (lit "could not parse PCK certificate chain") (some exc)
        .ok { qeReport, qeReportSignature := qeReportSig, qeAuthData := qeAuth, pckChain := chain }

/-- The part of `parse` that reads the signature section, `sigLen` as it was declared. -/
def parseSection (sigLen : Nat) (sig : Bytes) : Result (SignatureData Cert) :=
  if sig.length < quoteSigLen + attKeyLen + certDataHeaderLen then
    raise .attestationFailed (lit "TDX quote signature section is truncated")
      (some (lit "declared " ++ decimal sigLen ++ lit " bytes"))
  else do
    let quoteSig := slice sig 0 quoteSigLen
    let attKey := slice sig quoteSigLen (quoteSigLen + attKeyLen)
    let pos := quoteSigLen + attKeyLen
    let (outerType, outerLen) ← unpackHI sig pos
    let pos := pos + certDataHeaderLen
    if outerType ≠ certTypeQeReport then
      raise .attestationFailed (lit "unsupported certification data type")
        (some (lit "type=" ++ decimal outerType ++ lit ", expected " ++ decimal certTypeQeReport ++ lit " (QE report)"))
    else if pos + outerLen > sig.length then
      raise .attestationFailed (lit "QE certification data is truncated")
    else do
      let qe ← parseCertData loadPem (slice sig pos (pos + outerLen))
      .ok { quoteSignature := quoteSig, attestationKey := attKey, qe }

/-- `TdxQuote.parse` -/
def TdxQuote.parse (blob : Bytes) : Result (TdxQuote Cert) :=
  if blob.length < signedLen + 4 then
    raise .attestationFailed (lit "TDX quote too short")
      (some (lit "got " ++ decimal blob.length ++ lit " bytes, need at least " ++ decimal (signedLen + 4)))
  else do
    let (version, _, teeType) ← unpackHHI blob 0
    let measurement := slice blob mrtdOffset (mrtdOffset + mrtdLen)
    let reportData := slice blob reportDataOffset (reportDataOffset + reportDataLen)
    let sigLen ← unpackI blob signedLen
    let pos := signedLen + 4
    if pos + sigLen > blob.length then
      raise .attestationFailed (lit "TDX quote signature section is truncated")
    else do
      let sig ← parseSection loadPem sigLen (slice blob pos (pos + sigLen))
      .ok
        { version, teeType, measurement, reportData
          signedBody := slice blob 0 signedLen
          quoteSignature := sig.quoteSignature
          attestationKey := sig.attestationKey
          qeReport := sig.qe.qeReport
          qeReportSignature := sig.qe.qeReportSignature
          qeAuthData := sig.qe.qeAuthData
          pckChain := sig.qe.pckChain }

end

/-! ## The layout -/

/-- The certification data of type 6: the QE report, its signature, the authentication data and the chain of type 5. -/
structure CertDataLayout where
  qeReport : Bytes
  qeReportSignature : Bytes
  qeAuthData : Bytes
  chain : Bytes
  slack : Bytes
  qeReport_length : qeReport.length = qeReportLen
  qeReportSignature_length : qeReportSignature.length = quoteSigLen
  qeAuthData_lt : qeAuthData.length < 256 ^ 2
  chain_lt : chain.length < 256 ^ 4

def CertDataLayout.fields (l : CertDataLayout) : Bytes :=
  l.qeReport ++ (l.qeReportSignature ++ (toLittle 2 l.qeAuthData.length ++ (l.qeAuthData ++
    (toLittle 2 certTypePckChain ++ (toLittle 4 l.chain.length ++ l.chain)))))

def CertDataLayout.encode (l : CertDataLayout) : Bytes := l.fields ++ l.slack

/-- The signature section. -/
structure SectionLayout where
  quoteSignature : Bytes
  attestationKey : Bytes
  certData : CertDataLayout
  slack : Bytes
  quoteSignature_length : quoteSignature.length = quoteSigLen
  attestationKey_length : attestationKey.length = attKeyLen
  certData_lt : certData.encode.length < 256 ^ 4

def SectionLayout.fields (l : SectionLayout) : Bytes :=
  l.quoteSignature ++ (l.attestationKey ++ (toLittle 2 certTypeQeReport ++ (toLittle 4 l.certData.encode.length ++
    l.certData.encode)))

def SectionLayout.encode (l : SectionLayout) : Bytes := l.fields ++ l.slack

theorem CertDataLayout.length_encode (l : CertDataLayout) :
    l.encode.length = qeReportLen + quoteSigLen + 2 + l.qeAuthData.length + 6 + l.chain.length + l.slack.length := by
  simp only [encode, fields, List.length_append, length_toLittle, l.qeReport_length, l.qeReportSignature_length]
  omega

theorem SectionLayout.length_encode (l : SectionLayout) :
    l.encode.length = quoteSigLen + attKeyLen + 6 + l.certData.encode.length + l.slack.length := by
  simp only [encode, fields, List.length_append, length_toLittle, l.quoteSignature_length, l.attestationKey_length]
  omega

/-- The header and the TD report. -/
structure BodyLayout where
  version : Nat
  attKeyType : Nat
  teeType : Nat
  headerRest : Bytes
  beforeMrtd : Bytes
  mrtd : Bytes
  afterMrtd : Bytes
  reportData : Bytes
  version_lt : version < 256 ^ 2
  attKeyType_lt : attKeyType < 256 ^ 2
  teeType_lt : teeType < 256 ^ 4
  headerRest_length : headerRest.length = 40
  beforeMrtd_length : beforeMrtd.length = 136
  mrtd_length : mrtd.length = mrtdLen
  afterMrtd_length : afterMrtd.length = 336
  reportData_length : reportData.length = TdxQuote.reportDataLen

def BodyLayout.encode (l : BodyLayout) : Bytes :=
  toLittle 2 l.version ++ (toLittle 2 l.attKeyType ++ (toLittle 4 l.teeType ++ (l.headerRest ++ (l.beforeMrtd ++
    (l.mrtd ++ (l.afterMrtd ++ l.reportData))))))

/-- A quote. -/
structure QuoteLayout where
  body : BodyLayout
  sig : SectionLayout
  sig_lt : sig.encode.length < 256 ^ 4

def QuoteLayout.encode (l : QuoteLayout) : Bytes :=
  l.body.encode ++ (toLittle 4 l.sig.encode.length ++ l.sig.encode)

section
variable {Cert : Type}

/-- What is appraised of the certification data, with the certificates of its chain. -/
def CertDataLayout.data (l : CertDataLayout) (chain : List Cert) : QeData Cert where
  qeReport := l.qeReport
  qeReportSignature := l.qeReportSignature
  qeAuthData := l.qeAuthData
  pckChain := chain

/-- What is appraised of the signature section. -/
def SectionLayout.data (l : SectionLayout) (chain : List Cert) : SignatureData Cert where
  quoteSignature := l.quoteSignature
  attestationKey := l.attestationKey
  qe := l.certData.data chain

/-- What is returned of a quote with this header, TD report and signature section. -/
def BodyLayout.quote (body : BodyLayout) (d : SignatureData Cert) : TdxQuote Cert where
  version := body.version
  teeType := body.teeType
  measurement := body.mrtd
  reportData := body.reportData
  signedBody := body.encode
  quoteSignature := d.quoteSignature
  attestationKey := d.attestationKey
  qeReport := d.qe.qeReport
  qeReportSignature := d.qe.qeReportSignature
  qeAuthData := d.qe.qeAuthData
  pckChain := d.qe.pckChain

/-- What is appraised of the quote. -/
def QuoteLayout.quote (l : QuoteLayout) (chain : List Cert) : TdxQuote Cert := l.body.quote (l.sig.data chain)

end

/-! ## `struct`, where the buffer is long enough -/

section
variable {buf : Bytes} {offset : Nat}

theorem requireBuffer_ok {size : Nat} (h : offset + size ≤ buf.length) : requireBuffer size buf offset = .ok () := if_pos h

theorem unpackH_at {n : Nat} (hn : n < 256 ^ 2) (h : At buf offset (toLittle 2 n)) : unpackH buf offset = .ok n := by
  obtain ⟨hle, hread⟩ := (at_toLittle hn).mp h
  rw [unpackH, requireBuffer_ok hle, ok_bind, hread]

theorem unpackI_at {n : Nat} (hn : n < 256 ^ 4) (h : At buf offset (toLittle 4 n)) : unpackI buf offset = .ok n := by
  obtain ⟨hle, hread⟩ := (at_toLittle hn).mp h
  rw [unpackI, requireBuffer_ok hle, ok_bind, hread]

theorem unpackHI_at {m n : Nat} (hm : m < 256 ^ 2) (hn : n < 256 ^ 4) (h : At buf offset (toLittle 2 m ++ toLittle 4 n)) :
    unpackHI buf offset = .ok (m, n) := by
  rw [at_append, length_toLittle, at_toLittle hm, at_toLittle hn] at h
  obtain ⟨⟨_, hfirst⟩, hle, hsecond⟩ := h
  rw [unpackHI, requireBuffer_ok (by omega), ok_bind, hfirst, hsecond]

theorem unpackHHI_at {l m n : Nat} (hl : l < 256 ^ 2) (hm : m < 256 ^ 2) (hn : n < 256 ^ 4)
    (h : At buf offset (toLittle 2 l ++ (toLittle 2 m ++ toLittle 4 n))) : unpackHHI buf offset = .ok (l, m, n) := by
  rw [at_append, at_append, length_toLittle, length_toLittle, at_toLittle hl, at_toLittle hm, at_toLittle hn] at h
  obtain ⟨⟨_, hfirst⟩, ⟨_, hsecond⟩, hle, hthird⟩ := h
  rw [unpackHHI, requireBuffer_ok (by omega), ok_bind, hfirst, hsecond, hthird]

/-- Where there is room for an integer, one stands. -/
theorem exists_toLittle {w : Nat} (h : offset + w ≤ buf.length) :
    ∃ n < 256 ^ w, At buf offset (toLittle w n) :=
  ⟨_, ofLittle_slice_lt h, (at_toLittle (ofLittle_slice_lt h)).mpr ⟨h, rfl⟩⟩

end

/-! ## The certification data -/

section
variable {Cert : Type} {loadPem : Bytes → Result (List Cert)}

/-- The PEM loader returns or raises `ValueError`. -/
def PemLoader (loadPem : Bytes → Result (List Cert)) : Prop :=
  ∀ b, Spec (loadPem b) (fun _ => True) fun e => ∃ k t, e = .builtin k t ∧ k.isValueError = true

/-- Where the fields of the certification data stand. -/
theorem CertDataLayout.at_fields {buf : Bytes} {l : CertDataLayout} :
    At buf 0 l.fields ↔ At buf 0 l.qeReport ∧ At buf (0 + qeReportLen) l.qeReportSignature ∧
      At buf (0 + qeReportLen + quoteSigLen) (toLittle 2 l.qeAuthData.length) ∧
      At buf (0 + qeReportLen + quoteSigLen + 2) l.qeAuthData ∧
      At buf (0 + qeReportLen + quoteSigLen + 2 + l.qeAuthData.length)
        (toLittle 2 certTypePckChain ++ toLittle 4 l.chain.length) ∧
      At buf (0 + qeReportLen + quoteSigLen + 2 + l.qeAuthData.length + certDataHeaderLen) l.chain := by
  have hheader : certDataHeaderLen = 2 + 4 := rfl
  rw [hheader, ← Nat.add_assoc]
  simp only [fields, at_append, length_toLittle, l.qeReport_length, l.qeReportSignature_length, and_assoc]

/-- Fields that stand so are those of a layout. -/
theorem CertDataLayout.of_at {buf report sig auth chain : Bytes} (hreport : report.length = qeReportLen)
    (hsig : sig.length = quoteSigLen) (hauth : auth.length < 256 ^ 2) (hchain : chain.length < 256 ^ 4)
    (hat_report : At buf 0 report) (hat_sig : At buf (0 + qeReportLen) sig)
    (hat_authLen : At buf (0 + qeReportLen + quoteSigLen) (toLittle 2 auth.length))
    (hat_auth : At buf (0 + qeReportLen + quoteSigLen + 2) auth)
    (hat_header : At buf (0 + qeReportLen + quoteSigLen + 2 + auth.length)
      (toLittle 2 certTypePckChain ++ toLittle 4 chain.length))
    (hat_chain : At buf (0 + qeReportLen + quoteSigLen + 2 + auth.length + certDataHeaderLen) chain) :
    ∃ l : CertDataLayout, buf = l.encode ∧
      l.qeReport = report ∧ l.qeReportSignature = sig ∧ l.qeAuthData = auth ∧ l.chain = chain := by
  obtain ⟨rest, hrest⟩ := at_zero.mp (CertDataLayout.at_fields.mpr
    (⟨hat_report, hat_sig, hat_authLen, hat_auth, hat_header, hat_chain⟩ :
      At buf 0 (CertDataLayout.mk report sig auth chain [] hreport hsig hauth hchain).qeReport ∧ _))
  exact ⟨⟨report, sig, auth, chain, rest, hreport, hsig, hauth, hchain⟩, hrest, rfl, rfl, rfl, rfl⟩

theorem parseCertData_spec (hload : PemLoader loadPem) (certData : Bytes) :
    Spec (parseCertData loadPem certData)
      (fun qe => ∃ (l : CertDataLayout) (chain : List Cert), certData = l.encode ∧ loadPem l.chain = .ok chain ∧
        qe = l.data chain)
      (Exc.isClass .attestationFailed) := by
  have hheader : certDataHeaderLen = 6 := rfl
  unfold parseCertData
  split
  · exact rfl
  rename_i hshort
  dsimp only
  generalize hstart : 0 + qeReportLen + quoteSigLen = start
  obtain ⟨authLen, hauthLen, hat_authLen⟩ := @exists_toLittle certData start 2 (by omega)
  rw [unpackH_at hauthLen hat_authLen, ok_bind]
  split
  · exact rfl
  rename_i hauth
  obtain ⟨certType, htype, hat_type⟩ := @exists_toLittle certData (start + 2 + authLen) 2 (by omega)
  obtain ⟨certLen, hcertLen, hat_certLen⟩ := @exists_toLittle certData (start + 2 + authLen + 2) 4 (by omega)
  have hat_header : At certData (start + 2 + authLen) (toLittle 2 certType ++ toLittle 4 certLen) :=
    at_append.mpr ⟨hat_type, by rwa [length_toLittle]⟩
  rw [unpackHI_at htype hcertLen hat_header, ok_bind]
  split
  · exact rfl
  rename_i hchain
  split
  · exact rfl
  rename_i hpck
  obtain ⟨report, hreport, hat_report, hreport_length⟩ := @exists_at_slice certData 0 (0 + qeReportLen) (by omega) (by omega)
  obtain ⟨sig, hsig, hat_sig, hsig_length⟩ := @exists_at_slice certData (0 + qeReportLen) start (by omega) (by omega)
  obtain ⟨auth, hauthData, hat_auth, hauth_length⟩ := @exists_at_slice certData (start + 2) (start + 2 + authLen) (by omega)
    (by omega)
  obtain rfl : auth.length = authLen := Nat.add_left_cancel hauth_length
  rw [hreport, hsig, hauthData]
  generalize hpos : start + 2 + auth.length + certDataHeaderLen = pos at hchain ⊢
  obtain ⟨pem, hpem_eq, hat_pem, hpem_length⟩ := @exists_at_slice certData pos (pos + certLen) (by omega) (by omega)
  obtain rfl : pem.length = certLen := Nat.add_left_cancel hpem_length
  rw [hpem_eq]
  cases hpem : loadPem pem with
  | error e =>
    obtain ⟨k, t, rfl, hk⟩ := (hload pem).of_error hpem
    simp only [catchBuiltin, hk, if_true]
    exact rfl
  | ok chain =>
    obtain rfl : certType = certTypePckChain := not_not.mp hpck
    subst hstart hpos
    obtain ⟨l, hl, rfl, rfl, rfl, rfl⟩ := CertDataLayout.of_at (Nat.add_left_cancel hreport_length)
      (Nat.add_left_cancel hsig_length) hauthLen hcertLen hat_report hat_sig hat_authLen hat_auth hat_header hat_pem
    exact ⟨l, chain, hl, hpem, rfl⟩

theorem parseCertData_encode (l : CertDataLayout) {chain : List Cert} (hload : loadPem l.chain = .ok chain) :
    parseCertData loadPem l.encode = .ok (l.data chain) := by
  have hat := CertDataLayout.at_fields.mp (at_zero.mpr ⟨l.slack, rfl⟩ : At l.encode 0 l.fields)
  generalize l.encode = certData at hat ⊢
  obtain ⟨hreport, hsig, hauthLen, hauth, hheader, hpem⟩ := hat
  have hfits := hpem.1
  have hwidth : certDataHeaderLen = 6 := rfl
  unfold parseCertData
  rw [if_neg (by omega)]
  dsimp only
  rw [unpackH_at l.qeAuthData_lt hauthLen, ok_bind, if_neg (by omega), unpackHI_at (by decide) l.chain_lt hheader, ok_bind,
    if_neg (by omega), if_neg (by simp), hpem.slice_eq rfl, hload]
  simp only [catchBuiltin, ok_bind]
  rw [hreport.slice_eq (by rw [l.qeReport_length]), hsig.slice_eq (by rw [l.qeReportSignature_length]), hauth.slice_eq rfl]
  rfl

/-! ## The signature section -/

/-- Where the fields of the section stand. -/
theorem SectionLayout.at_fields {buf : Bytes} {l : SectionLayout} :
    At buf 0 l.fields ↔ At buf 0 l.quoteSignature ∧ At buf quoteSigLen l.attestationKey ∧
      At buf (quoteSigLen + attKeyLen) (toLittle 2 certTypeQeReport ++ toLittle 4 l.certData.encode.length) ∧
      At buf (quoteSigLen + attKeyLen + certDataHeaderLen) l.certData.encode := by
  have hheader : certDataHeaderLen = 2 + 4 := rfl
  rw [hheader, ← Nat.add_assoc]
  simp only [fields, at_append, length_toLittle, l.quoteSignature_length, l.attestationKey_length, and_assoc, Nat.zero_add]

/-- Fields that stand so are those of a layout. -/
theorem SectionLayout.of_at {buf quoteSig key : Bytes} {certData : CertDataLayout} (hsig : quoteSig.length = quoteSigLen)
    (hkey : key.length = attKeyLen) (hcertData : certData.encode.length < 256 ^ 4) (hat_sig : At buf 0 quoteSig)
    (hat_key : At buf quoteSigLen key)
    (hat_header : At buf (quoteSigLen + attKeyLen) (toLittle 2 certTypeQeReport ++ toLittle 4 certData.encode.length))
    (hat_certData : At buf (quoteSigLen + attKeyLen + certDataHeaderLen) certData.encode) :
    ∃ l : SectionLayout, buf = l.encode ∧ l.quoteSignature = quoteSig ∧ l.attestationKey = key ∧ l.certData = certData := by
  obtain ⟨rest, hrest⟩ := at_zero.mp (SectionLayout.at_fields.mpr
    (⟨hat_sig, hat_key, hat_header, hat_certData⟩ :
      At buf 0 (SectionLayout.mk quoteSig key certData [] hsig hkey hcertData).quoteSignature ∧ _))
  exact ⟨⟨quoteSig, key, certData, rest, hsig, hkey, hcertData⟩, hrest, rfl, rfl, rfl⟩

theorem parseSection_spec (hload : PemLoader loadPem) (sigLen : Nat) (sig : Bytes) :
    Spec (parseSection loadPem sigLen sig)
      (fun d => ∃ (l : SectionLayout) (chain : List Cert), sig = l.encode ∧ loadPem l.certData.chain = .ok chain ∧
        d = l.data chain)
      (Exc.isClass .attestationFailed) := by
  have hheader : certDataHeaderLen = 6 := rfl
  unfold parseSection
  split
  · exact rfl
  rename_i hshort
  dsimp only
  generalize hstart : quoteSigLen + attKeyLen = start
  obtain ⟨outerType, htype, hat_type⟩ := @exists_toLittle sig start 2 (by omega)
  obtain ⟨outerLen, houterLen, hat_outerLen⟩ := @exists_toLittle sig (start + 2) 4 (by omega)
  have hat_header : At sig start (toLittle 2 outerType ++ toLittle 4 outerLen) :=
    at_append.mpr ⟨hat_type, by rwa [length_toLittle]⟩
  rw [unpackHI_at htype houterLen hat_header, ok_bind]
  split
  · exact rfl
  rename_i hqe
  split
  · exact rfl
  rename_i hfits
  obtain ⟨quoteSig, hquoteSig, hat_sig, hsig_length⟩ := @exists_at_slice sig 0 quoteSigLen (by omega) (by omega)
  obtain ⟨key, hkey, hat_key, hkey_length⟩ := @exists_at_slice sig quoteSigLen start (by omega) (by omega)
  obtain ⟨data, hdata, hat_data, hdata_length⟩ := @exists_at_slice sig (start + certDataHeaderLen)
    (start + certDataHeaderLen + outerLen) (by omega) (by omega)
  rw [hquoteSig, hkey, hdata]
  refine (parseCertData_spec hload data).bind fun qe hparsed => ?_
  obtain ⟨certData, chain, rfl, hpem, rfl⟩ := hparsed
  obtain rfl : certData.encode.length = outerLen := Nat.add_left_cancel hdata_length
  obtain rfl : outerType = certTypeQeReport := not_not.mp hqe
  subst hstart
  obtain ⟨l, hl, rfl, rfl, rfl⟩ := SectionLayout.of_at ((Nat.zero_add _).symm.trans hsig_length) (Nat.add_left_cancel hkey_length)
    houterLen hat_sig hat_key hat_header hat_data
  exact ⟨l, chain, hl, hpem, rfl⟩

theorem parseSection_encode (l : SectionLayout) (sigLen : Nat) {chain : List Cert}
    (hload : loadPem l.certData.chain = .ok chain) : parseSection loadPem sigLen l.encode = .ok (l.data chain) := by
  have hat := SectionLayout.at_fields.mp (at_zero.mpr ⟨l.slack, rfl⟩ : At l.encode 0 l.fields)
  generalize l.encode = sig at hat ⊢
  obtain ⟨hsig, hkey, hheader, hdata⟩ := hat
  have hfits := hdata.1
  have hwidth : certDataHeaderLen = 6 := rfl
  unfold parseSection
  rw [if_neg (by omega)]
  dsimp only
  rw [unpackHI_at (by decide) l.certData_lt hheader, ok_bind, if_neg (by simp), if_neg (by omega), hdata.slice_eq rfl,
    parseCertData_encode l.certData hload, ok_bind, hsig.slice_eq (by rw [l.quoteSignature_length, Nat.zero_add]),
    hkey.slice_eq (by rw [l.attestationKey_length])]
  rfl

/-! ## The quote -/

theorem BodyLayout.length_encode (l : BodyLayout) : l.encode.length = signedLen := by
  simp only [encode, List.length_append, length_toLittle, l.headerRest_length, l.beforeMrtd_length, l.mrtd_length,
    l.afterMrtd_length, l.reportData_length]
  rfl

/-- Where the fields of the header and the TD report stand. -/
theorem BodyLayout.at_encode {buf : Bytes} {l : BodyLayout} :
    At buf 0 l.encode ↔ At buf 0 (toLittle 2 l.version ++ (toLittle 2 l.attKeyType ++ toLittle 4 l.teeType)) ∧
      At buf 8 l.headerRest ∧ At buf headerLen l.beforeMrtd ∧ At buf mrtdOffset l.mrtd ∧
      At buf (mrtdOffset + mrtdLen) l.afterMrtd ∧ At buf reportDataOffset l.reportData := by
  have hheader : headerLen = 48 := rfl
  have hmrtd : mrtdOffset = 184 := rfl
  have hafter : mrtdOffset + mrtdLen = 232 := rfl
  have hdata : reportDataOffset = 568 := rfl
  have hlength : l.mrtd.length = 48 := l.mrtd_length
  rw [hafter, hheader, hmrtd, hdata]
  simp only [encode, at_append, length_toLittle, and_assoc, l.headerRest_length, l.beforeMrtd_length, hlength,
    l.afterMrtd_length, Nat.reduceAdd]

/-- Every blob that is long enough starts with a header and a TD report. -/
theorem exists_body {blob : Bytes} (h : signedLen ≤ blob.length) : ∃ body : BodyLayout, At blob 0 body.encode := by
  have hlong : 632 ≤ blob.length := h
  obtain ⟨version, hversion, hat_version⟩ := @exists_toLittle blob 0 2 (by omega)
  obtain ⟨keyType, hkeyType, hat_keyType⟩ := @exists_toLittle blob 2 2 (by omega)
  obtain ⟨teeType, hteeType, hat_teeType⟩ := @exists_toLittle blob 4 4 (by omega)
  have hfield : ∀ i w, i + w ≤ 632 → ∃ b : Bytes, b.length = w ∧ At blob i b := by
    intro i w hw
    obtain ⟨b, _, hat, hlength⟩ := @exists_at_slice blob i (i + w) (by omega) (by omega)
    exact ⟨b, Nat.add_left_cancel hlength, hat⟩
  obtain ⟨headerRest, hheaderRest, hat_headerRest⟩ := hfield 8 40 (by omega)
  obtain ⟨beforeMrtd, hbeforeMrtd, hat_beforeMrtd⟩ := hfield headerLen 136 (by decide)
  obtain ⟨mrtd, hmrtd, hat_mrtd⟩ := hfield mrtdOffset mrtdLen (by decide)
  obtain ⟨afterMrtd, hafterMrtd, hat_afterMrtd⟩ := hfield (mrtdOffset + mrtdLen) 336 (by decide)
  obtain ⟨reportData, hreportData, hat_reportData⟩ := hfield reportDataOffset TdxQuote.reportDataLen (by decide)
  refine ⟨⟨version, keyType, teeType, headerRest, beforeMrtd, mrtd, afterMrtd, reportData, hversion, hkeyType, hteeType,
    hheaderRest, hbeforeMrtd, hmrtd, hafterMrtd, hreportData⟩, BodyLayout.at_encode.mpr ?_⟩
  refine ⟨?_, hat_headerRest, hat_beforeMrtd, hat_mrtd, hat_afterMrtd, hat_reportData⟩
  simp only [at_append, length_toLittle, Nat.zero_add, Nat.reduceAdd]
  exact ⟨hat_version, hat_keyType, hat_teeType⟩

/-- **The parser reads the header, the TD report and the declared section**, and nothing else. -/
theorem TdxQuote.parse_eq {blob : Bytes} {body : BodyLayout} {sigLen : Nat} (hbody : At blob 0 body.encode)
    (hlt : sigLen < 256 ^ 4) (hsigLen : At blob signedLen (toLittle 4 sigLen)) :
    TdxQuote.parse loadPem blob =
      if signedLen + 4 + sigLen > blob.length then
        raise .attestationFailed (lit "TDX quote signature section is truncated")
      else (parseSection loadPem sigLen (slice blob (signedLen + 4) (signedLen + 4 + sigLen))) >>= fun d =>
        .ok (body.quote d) := by
  have hfits := hsigLen.1
  rw [length_toLittle] at hfits
  obtain ⟨hheader, _, _, hmrtd, _, hreport⟩ := BodyLayout.at_encode.mp hbody
  rw [TdxQuote.parse, if_neg (by omega), unpackHHI_at body.version_lt body.attKeyType_lt body.teeType_lt hheader, ok_bind]
  dsimp only
  rw [unpackI_at hlt hsigLen, ok_bind, hmrtd.slice_eq (by rw [body.mrtd_length]),
    hreport.slice_eq (by rw [body.reportData_length]), hbody.slice_eq (by rw [body.length_encode, Nat.zero_add])]
  rfl

/-- What the parser returns was laid out so. -/
theorem TdxQuote.parse_spec (hload : PemLoader loadPem) (blob : Bytes) :
    Spec (TdxQuote.parse loadPem blob)
      (fun q => ∃ (l : QuoteLayout) (padding : Bytes) (chain : List Cert), blob = l.encode ++ padding ∧
        loadPem l.sig.certData.chain = .ok chain ∧ q = l.quote chain)
      (Exc.isClass .attestationFailed) := by
  by_cases hshort : blob.length < signedLen + 4
  · rw [TdxQuote.parse, if_pos hshort]
    exact rfl
  obtain ⟨body, hbody⟩ := @exists_body blob (by omega)
  obtain ⟨sigLen, hlt, hsigLen⟩ := @exists_toLittle blob signedLen 4 (by omega)
  rw [TdxQuote.parse_eq hbody hlt hsigLen]
  split
  · exact rfl
  rename_i hfits
  generalize hstart : signedLen + 4 = start at hfits ⊢
  obtain ⟨bytes, hbytes, hat, hlength⟩ := @exists_at_slice blob start (start + sigLen) (by omega) (by omega)
  rw [hbytes]
  obtain rfl : bytes.length = sigLen := Nat.add_left_cancel hlength
  refine (parseSection_spec hload bytes.length bytes).bind fun d hd => ?_
  obtain ⟨sig, chain, rfl, hpem, rfl⟩ := hd
  subst hstart
  have hquote : At blob 0 (QuoteLayout.mk body sig hlt).encode := by
    rw [QuoteLayout.encode, at_append, at_append, body.length_encode, length_toLittle, Nat.zero_add]
    exact ⟨hbody, hsigLen, hat⟩
  obtain ⟨padding, hpadding⟩ := at_zero.mp hquote
  exact ⟨⟨body, sig, hlt⟩, padding, chain, hpadding, hpem, rfl⟩

theorem TdxQuote.parse_encode (l : QuoteLayout) (padding : Bytes) {chain : List Cert}
    (hload : loadPem l.sig.certData.chain = .ok chain) :
    TdxQuote.parse loadPem (l.encode ++ padding) = .ok (l.quote chain) := by
  have hat : At (l.encode ++ padding) 0 l.encode := at_zero.mpr ⟨padding, rfl⟩
  generalize l.encode ++ padding = blob at hat ⊢
  rw [QuoteLayout.encode, at_append, at_append, l.body.length_encode, length_toLittle, Nat.zero_add] at hat
  obtain ⟨hbody, hsigLen, hsig⟩ := hat
  have hfits := hsig.1
  rw [TdxQuote.parse_eq hbody l.sig_lt hsigLen, if_neg (by omega), hsig.slice_eq rfl, parseSection_encode l.sig _ hload]
  rfl

/-- The signature section, as it is declared and where it is all there. -/
def declaredSection (blob : Bytes) : Option Bytes :=
  let stop := signedLen + 4 + ofLittle (slice blob signedLen (signedLen + 4))
  if signedLen + 4 ≤ blob.length ∧ stop ≤ blob.length then some (slice blob (signedLen + 4) stop) else none

/-- What is returned of the signature section. -/
def TdxQuote.sectionFields (q : TdxQuote Cert) : SignatureData Cert where
  quoteSignature := q.quoteSignature
  attestationKey := q.attestationKey
  qe :=
    { qeReport := q.qeReport, qeReportSignature := q.qeReportSignature, qeAuthData := q.qeAuthData
      pckChain := q.pckChain }

theorem le_length_of_declaredSection {blob sig : Bytes} (h : declaredSection blob = some sig) : signedLen ≤ blob.length := by
  unfold declaredSection at h
  dsimp only at h
  split at h
  · rename_i hfits
    exact le_trans (Nat.le_add_right _ _) hfits.1
  · cases h

/-- What is declared is parsed, the header and the TD report put before it. -/
theorem TdxQuote.parse_of_declaredSection {blob sig : Bytes} (h : declaredSection blob = some sig) {body : BodyLayout}
    (hbody : At blob 0 body.encode) :
    TdxQuote.parse loadPem blob = (parseSection loadPem sig.length sig) >>= fun d => .ok (body.quote d) := by
  unfold declaredSection at h
  dsimp only at h
  split at h
  · rename_i hfits
    have hsig := Option.some.inj h
    subst hsig
    have hlt := ofLittle_slice_lt hfits.1
    rw [TdxQuote.parse_eq hbody hlt ((at_toLittle hlt).mpr ⟨hfits.1, rfl⟩), if_neg (by omega), length_slice hfits.2,
      Nat.add_sub_cancel_left]
  · cases h

/-- Every field has the length it is declared with. -/
structure TdxQuote.FullLength (q : TdxQuote Cert) : Prop where
  measurement : q.measurement.length = 48
  reportData : q.reportData.length = 64
  signedBody : q.signedBody.length = 632
  quoteSignature : q.quoteSignature.length = 64
  attestationKey : q.attestationKey.length = 64
  qeReport : q.qeReport.length = 384
  qeReportSignature : q.qeReportSignature.length = 64
  qeAuthData : q.qeAuthData.length < 256 ^ 2

theorem QuoteLayout.quote_fullLength (l : QuoteLayout) (chain : List Cert) : (l.quote chain).FullLength where
  measurement := l.body.mrtd_length
  reportData := l.body.reportData_length
  signedBody := l.body.length_encode
  quoteSignature := l.sig.quoteSignature_length
  attestationKey := l.sig.attestationKey_length
  qeReport := l.sig.certData.qeReport_length
  qeReportSignature := l.sig.certData.qeReportSignature_length
  qeAuthData := l.sig.certData.qeAuthData_lt

/-- **The parser is total and faithful.** It raises `AttestationFailed` or returns, and returns exactly for a blob that
starts with a layout whose chain can be loaded, with the fields of that layout at their full length, whatever slack the
layout has and whatever follows it. What is read of the signature section depends on the declared section alone, and the
rest on the header and the TD report. -/
theorem tdxQuote_parse (hload : PemLoader loadPem) :
    (∀ blob e, TdxQuote.parse loadPem blob = .error e → e.isClass .attestationFailed) ∧
    (∀ blob q, TdxQuote.parse loadPem blob = .ok q ↔ ∃ (l : QuoteLayout) (padding : Bytes) (chain : List Cert),
      blob = l.encode ++ padding ∧ loadPem l.sig.certData.chain = .ok chain ∧ q = l.quote chain) ∧
    (∀ blob q, TdxQuote.parse loadPem blob = .ok q → q.FullLength) ∧
    ∀ blob blob' sig, declaredSection blob = some sig → declaredSection blob' = some sig →
      (TdxQuote.parse loadPem blob).map TdxQuote.sectionFields =
          (TdxQuote.parse loadPem blob').map TdxQuote.sectionFields ∧
        (slice blob 0 signedLen = slice blob' 0 signedLen → TdxQuote.parse loadPem blob = TdxQuote.parse loadPem blob') := by
  refine ⟨fun blob e => (TdxQuote.parse_spec hload blob).of_error, fun blob q => ⟨(TdxQuote.parse_spec hload blob).of_ok, ?_⟩,
    fun blob q hq => ?_, fun blob blob' sig hsig hsig' => ?_⟩
  · intro h
    obtain ⟨l, padding, chain, rfl, hpem, rfl⟩ := h
    exact TdxQuote.parse_encode l padding hpem
  · obtain ⟨l, _, chain, _, _, rfl⟩ := (TdxQuote.parse_spec hload blob).of_ok hq
    exact l.quote_fullLength chain
  · obtain ⟨body, hbody⟩ := exists_body (le_length_of_declaredSection hsig)
    obtain ⟨body', hbody'⟩ := exists_body (le_length_of_declaredSection hsig')
    constructor
    · rw [TdxQuote.parse_of_declaredSection hsig hbody, TdxQuote.parse_of_declaredSection hsig' hbody']
      cases parseSection loadPem sig.length sig <;> rfl
    · intro hsame
      have hsigned : slice blob 0 signedLen = body.encode :=
        hbody.slice_eq (by rw [body.length_encode, Nat.zero_add])
      have hbody'' : At blob' 0 body.encode := by
        rw [← hsigned, hsame]
        exact at_slice (Nat.zero_le _) (le_length_of_declaredSection hsig')
      rw [TdxQuote.parse_of_declaredSection hsig hbody, TdxQuote.parse_of_declaredSection hsig' hbody'']

end

/-- A loader that takes any text but the empty one for a certificate. -/
def loadText (b : Bytes) : Result (List Bytes) :=
  if b = [] then .error (.builtin .valueError (lit "Unable to load PEM file")) else .ok [b]

theorem loadText_pemLoader : PemLoader loadText := by
  intro b
  unfold loadText
  split
  · exact ⟨.valueError, _, rfl, rfl⟩
  · exact trivial

/-- Certification data with slack. -/
def slackCertData : CertDataLayout where
  qeReport := List.replicate 384 3
  qeReportSignature := List.replicate 64 4
  qeAuthData := [5, 6]
  chain := [7]
  slack := [0, 0]
  qeReport_length := List.length_replicate
  qeReportSignature_length := List.length_replicate
  qeAuthData_lt := by decide
  chain_lt := by decide

/-- A signature section with slack. -/
def slackSection : SectionLayout where
  quoteSignature := List.replicate 64 1
  attestationKey := List.replicate 64 2
  certData := slackCertData
  slack := [0]
  quoteSignature_length := List.length_replicate
  attestationKey_length := List.length_replicate
  certData_lt := by
    rw [CertDataLayout.length_encode]
    decide

/-- A quote with slack in both sections. -/
def slackQuote : QuoteLayout where
  body :=
    { version := 4, attKeyType := 2, teeType := 0x81
      headerRest := List.replicate 40 0, beforeMrtd := List.replicate 136 0, mrtd := List.replicate 48 7
      afterMrtd := List.replicate 336 0, reportData := List.replicate 64 9
      version_lt := by decide, attKeyType_lt := by decide, teeType_lt := by decide
      headerRest_length := List.length_replicate, beforeMrtd_length := List.length_replicate
      mrtd_length := List.length_replicate, afterMrtd_length := List.length_replicate
      reportData_length := List.length_replicate }
  sig := slackSection
  sig_lt := by
    rw [SectionLayout.length_encode, slackSection, CertDataLayout.length_encode]
    decide

/-- It is read with a zero behind it. -/
theorem tdxQuote_parse_slackQuote : TdxQuote.parse loadText (slackQuote.encode ++ [0]) = .ok (slackQuote.quote [[7]]) :=
  ((tdxQuote_parse loadText_pemLoader).2.1 _ _).mpr ⟨slackQuote, [0], [[7]], rfl, rfl, rfl⟩

end Ca2a
