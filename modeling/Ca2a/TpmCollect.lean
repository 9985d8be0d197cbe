/-
`TpmProvider` of `ca2a_runtime.tee.tpm`, as a program over a TPM and the
network.

The registers may be extended by anybody while a call runs, so what is read of
them and what is quoted can differ; the call then fails. A key it makes for
itself is the call's to flush, whatever the quote comes to. The provisioned key
is used only with a certificate that certifies it, and only then does a chain
travel.
-/
import Ca2a.HardwareVerifier
import Ca2a.NvRead
import Ca2a.Py.Prog

namespace Ca2a

open Py

/-! ## The calls -/

/-- The public area of a key, as far as it is looked at: `bytes(public.to_pem())`. -/
abbrev KeyPem := Except LibError Bytes

/-- What a collector asks of the TPM, and of the network. `readNv` is `_read_nv`, which ends or not as `Ca2a.NvRead` says. -/
inductive TpmCall
  | connect
  | pcrRead
  | readNv (index : Nat)
  | trFromTpmpublic (handle : Nat)
  | readPublic (handle : Nat)
  | fetch (url : Str)
  | createPrimary
  | quote (handle : Nat) (qualifyingData : Bytes)
  | flushContext (handle : Nat)

/-- What it gets. -/
@[reducible] def TpmReply : TpmCall → Type
  | .connect => Except LibError Unit
  | .pcrRead => Except LibError (List Bytes)
  | .readNv _ => Option Bytes
  | .trFromTpmpublic _ => Except LibError Nat
  | .readPublic _ => Except LibError KeyPem
  | .fetch _ => Except LibError Bytes
  | .createPrimary => Except LibError (Nat × KeyPem)
  | .quote _ _ => Except LibError (Bytes × Bytes)
  | .flushContext _ => Except LibError Unit

/-- What leaves a collector: an `AttestationUnsupported`, what the rest of the runtime may raise, or an exception of the
bindings. -/
inductive TpmError
  | unsupported (message : Str) (detail : Option Str)
  | raised (e : Exc)
  | library (e : LibError)

/-- A function of the provider that works on the TPM. -/
abbrev TpmProgram (α : Type) := Prog TpmCall TpmReply α

/-- `f"{type(exc).__name__}: {exc}"` -/
def LibError.described (e : LibError) : Str := e.name ++ lit ": " ++ e.text

/-- `raise AttestationFailed(message, detail=detail)` -/
def tpmFailed {α : Type} (message : Str) (detail : Str) : Except TpmError α :=
  .error (.raised (.app { cls := .attestationFailed, message, detail := some detail }))

/-! ## Certificates -/

/-- What `cryptography` does with the certificate of an attestation key and its issuers. -/
structure CertLib where
  Cert : Type
  loadDer : Bytes → Except LibError Cert
  loadPem : Bytes → Except LibError Cert
  loadDerPkcs7 : Bytes → Except LibError (List Cert)
  loadPemPkcs7 : Bytes → Except LibError (List Cert)
  /-- `x509.load_pem_x509_certificates` -/
  loadPemCertificates : Bytes → Except LibError (List Cert)
  /-- `cert.subject == cert.issuer` -/
  selfIssued : Cert → Except LibError Bool
  /-- The entries of the AIA extension, each a method and its location if that is a text; nothing without the extension. -/
  aia : Cert → Except LibError (Option (List (Str × Option Str)))
  /-- `cert.public_key().public_bytes(Encoding.PEM, SubjectPublicKeyInfo)` -/
  publicPem : Cert → KeyPem
  /-- `public_bytes(Encoding.PEM)` -/
  pem : Cert → Bytes

/-- `_AIA_MAX_DEPTH` -/
def aiaMaxDepth : Nat := 4

/-- `_AIA_CA_ISSUERS_OID` -/
def aiaCaIssuersOid : Str := lit "1.3.6.1.5.5.7.48.2"

/-- `url.startswith(("http://", "https://"))` -/
def isHttpUrl (url : Str) : Bool := (lit "http://").isPrefixOf url || (lit "https://").isPrefixOf url

section
variable (lib : CertLib)

/-- `load_any` -/
def loadAny (data : Bytes) : List lib.Cert :=
  match lib.loadDer data with
  | .ok cert => [cert]
  | .error _ =>
    match lib.loadPem data with
    | .ok cert => [cert]
    | .error _ =>
      match lib.loadDerPkcs7 data with
      | .ok (cert :: found) => cert :: found
      | _ =>
        match lib.loadPemPkcs7 data with
        | .ok found => found
        | .error _ => []

/-- The loop over the AIA entries in `_chain_from_leaf`. -/
def fetchIssuer : List (Str × Option Str) → TpmProgram (Option lib.Cert)
  | [] => .ret none
  | (method, location) :: aia =>
    if method ≠ aiaCaIssuersOid then fetchIssuer aia
    else
      match location with
      | none => fetchIssuer aia
      | some url =>
        if isHttpUrl url = false then fetchIssuer aia
        else
          .call (.fetch url) fun
            | .error _ => fetchIssuer aia
            | .ok data =>
              match loadAny lib data with
              | [] => fetchIssuer aia
              | issuer :: _ => .ret (some issuer)

/-- The loop of `_chain_from_leaf`, with as many rounds left. -/
def walkChain : (rounds : Nat) → List lib.Cert → TpmProgram (Except LibError (List lib.Cert))
  | 0, chain => .ret (.ok chain)
  | rounds + 1, chain =>
    match chain.getLast? with
    | none => .ret (.ok chain)
    | some current =>
      match lib.selfIssued current with
      | .error exc => .ret (.error exc)
      | .ok true => .ret (.ok chain)
      | .ok false =>
        match lib.aia current with
        | .error exc => .ret (.error exc)
        | .ok none => .ret (.ok chain)
        | .ok (some aia) =>
          (fetchIssuer lib aia).andThen fun
            | none => .ret (.ok chain)
            | some issuer => walkChain rounds (chain ++ [issuer])

/-- `_chain_from_leaf` -/
def chainFromLeaf (leafDer : Bytes) : TpmProgram (Except LibError Bytes) :=
  match loadAny lib leafDer with
  | [] => .ret (.ok [])
  | leaf :: rest =>
    (walkChain lib (aiaMaxDepth - (leaf :: rest).length) (leaf :: rest)).andThen fun chain =>
      .ret (chain.map fun certs => certs.flatMap lib.pem)

/-- `_certifies` -/
def certifies (chainPem : Bytes) (tpmPublic : KeyPem) : Except LibError Bool :=
  match lib.loadPemCertificates chainPem with
  | .ok (leaf :: _) => do
    let own ← lib.publicPem leaf
    let key ← tpmPublic
    .ok (own = key)
  | _ => .ok false

/-! ## The attestation key -/

/-- `_PLATFORM_AK_HANDLE` -/
def platformAkHandle : Nat := 0x81000003

/-- `_PLATFORM_AK_CERT_NV_INDEX` -/
def platformAkCertNvIndex : Nat := 0x01C101D0

/-- What `_attestation_key` returns. -/
structure AttestationKey where
  handle : Nat
  publicKey : KeyPem
  chainPem : Option Bytes
  transient : Bool

/-- `_create_attestation_key` -/
def createAttestationKey : TpmProgram (Except LibError AttestationKey) :=
  .call .createPrimary fun created => .ret (created.map fun key => ⟨key.1, key.2, none, true⟩)

/-- The `try` of `_attestation_key`: the platform's key, if its certificate certifies it. -/
def platformKey (certDer : Bytes) : TpmProgram (Option AttestationKey) :=
  .call (.trFromTpmpublic platformAkHandle) fun
    | .error _ => .ret none
    | .ok handle =>
      .call (.readPublic handle) fun
        | .error _ => .ret none
        | .ok publicKey =>
          (chainFromLeaf lib certDer).andThen fun
            | .error _ => .ret none
            | .ok chain =>
              if chain = [] then .ret none
              else
                match certifies lib chain publicKey with
                | .ok true => .ret (some ⟨handle, publicKey, some chain, false⟩)
                | _ => .ret none

/-- `_attestation_key` -/
def attestationKey : TpmProgram (Except LibError AttestationKey) :=
  .call (.readNv platformAkCertNvIndex) fun
    | none => createAttestationKey
    | some certDer =>
      (platformKey lib certDer).andThen fun
        | some key => .ret (.ok key)
        | none => createAttestationKey

/-! ## `_collect` -/

/-- `_PCR_COUNT` -/
def pcrCount : Nat := 8

/-- The quote of `_collect`, its signature and the key's PEM; a transient key is flushed whatever the quote came to. -/
def quoteWith (key : AttestationKey) (qualifyingData : Bytes) : TpmProgram (Except TpmError (Bytes × Bytes × Bytes)) :=
  .call (.quote key.handle qualifyingData) fun quoted =>
    let result :=
      match quoted with
      | .error exc => tpmFailed (lit "TPM2_Quote did not produce a signed quote") exc.described
      | .ok (attest, signature) =>
        match key.publicKey with
        | .error exc => tpmFailed (lit "TPM2_Quote did not produce a signed quote") exc.described
        | .ok pem => .ok (attest, signature, pem)
    if key.transient then .call (.flushContext key.handle) fun _ => .ret result else .ret result

/-- A text with `0x` and the digits of a number in hex. -/
def hexNumber (n : Nat) : Str := lit "0x" ++ (Nat.toDigits 16 n).map cp

/-- `_check_quote` -/
def checkQuote (quote : TpmQuote) (qualifyingData pcrDigestLocal : Bytes) : Except TpmError Unit :=
  if quote.magic ≠ tpmGeneratedValue then
    tpmFailed (lit "the quote is not TPM-generated") (lit "magic=" ++ hexNumber quote.magic)
  else if quote.attestType ≠ tpmStAttestQuote then
    tpmFailed (lit "the attestation is not a quote") (lit "type=" ++ hexNumber quote.attestType)
  else if quote.qualifyingData ≠ qualifyingData then
    tpmFailed (lit "the quote does not commit the requested key and nonce binding")
      (lit "extraData does not match the derived qualifying data")
  else if quote.pcrDigest ≠ pcrDigestLocal then
    tpmFailed (lit "the quoted PCR digest does not match the PCRs that were read")
      (lit "quote=" ++ hex quote.pcrDigest ++ lit " read=" ++ hex pcrDigestLocal ++
        lit "; the measurement would describe a different PCR selection")
  else .ok ()

/-- A call of `attest`. -/
structure TpmAttestCall where
  publicKey : Str
  nonce : Str
  role : Str

/-- The report of `_collect`, once the quote is there. -/
def tpmReport (call : TpmAttestCall) (qualifyingData pcrDigestLocal : Bytes) (chainPem : Option Bytes)
    (quoted : Bytes × Bytes × Bytes) : Except TpmError AttestationReport := do
  let quote ← (TpmQuote.parse quoted.1).result.mapError .raised
  checkQuote quote qualifyingData pcrDigestLocal
  .ok
    { platform := lit "tpm"
      measurement := lit "sha256:" ++ hex quote.pcrDigest
      publicKey := call.publicKey
      nonce := call.nonce
      rawEvidence := some quoted.1
      quoteSignature := some quoted.2.1
      attestationKeyPem := some quoted.2.2
      attestationKeyChainPem := chainPem
      role := call.role }

section
variable [Crypto]

/-- `_read_pcrs`, of what the TPM answered. -/
def readPcrs (answered : Except LibError (List Bytes)) : Except TpmError Bytes :=
  match answered with
  | .error exc =>
    .error (.unsupported (lit "the SHA-256 PCR bank could not be read")
      (some (exc.described ++ lit (". cA2A does not fall back to SHA-1: a report labelled sha256 must measure the " ++
        "SHA-256 bank."))))
  | .ok raw =>
    if raw.length < pcrCount then
      tpmFailed (lit "the TPM returned fewer PCRs than were selected")
        (lit "got " ++ decimal raw.length ++ lit ", expected " ++ decimal pcrCount)
    else .ok (Crypto.sha256 (raw.take pcrCount).flatten)

/-- `_collect`, from the attestation key on. -/
def collectQuote (call : TpmAttestCall) (qualifyingData pcrDigestLocal : Bytes) :
    TpmProgram (Except TpmError AttestationReport) :=
  (attestationKey lib).andThen fun
    | .error exc => .ret (tpmFailed (lit "no attestation key was available to sign a quote") exc.described)
    | .ok key =>
      (quoteWith key qualifyingData).andThen fun quoted =>
        .ret (quoted >>= tpmReport call qualifyingData pcrDigestLocal key.chainPem)

variable [Interp]

/-- `_collect` -/
def tpmCollect (call : TpmAttestCall) : TpmProgram (Except TpmError AttestationReport) :=
  match tpmQualifyingData call.publicKey call.nonce call.role with
  | .error e => .ret (.error (.raised e))
  | .ok qualifyingData =>
    .call .connect fun
      | .error exc => .ret (.error (.library exc))
      | .ok () =>
        .call .pcrRead fun answered =>
          match readPcrs answered with
          | .error e => .ret (.error e)
          | .ok pcrDigestLocal => collectQuote lib call qualifyingData pcrDigestLocal

/-! ## The host check -/

omit [Crypto] [Interp] in
/-- What the host check looks at: `sys.platform`, the files there are, and whether the bindings can be imported. -/
structure TpmEnv where
  platform : Str
  present : Str → Bool
  bindings : Bool

/-- `TPM_DEVICES` -/
def tpmDevices : List Str := [lit "/dev/tpmrm0", lit "/dev/tpm0"]

/-- `TpmProvider.detect` -/
def tpmDetect (env : TpmEnv) : Bool := env.platform = lit "linux" && tpmDevices.any env.present && env.bindings

/-- `TpmProvider._require_host` -/
def tpmRequireHost (env : TpmEnv) : Except TpmError Unit :=
  if env.platform ≠ lit "linux" then
    .error (.unsupported (lit "TPM quote generation is only implemented on Linux")
      (some (lit "running on " ++ env.platform ++ lit "; the TPM resource manager is a Linux device")))
  else
    match tpmDevices.filter env.present with
    | [] =>
      .error (.unsupported (lit "TPM quote generation requires a TPM device")
        (some (lit "none of " ++ (lit ", ").intercalate tpmDevices ++
          lit " exist; run on a host with a TPM 2.0 or vTPM")))
    | device :: _ =>
      if env.bindings then .ok ()
      else
        .error (.unsupported (lit "TPM quote generation requires the tpm2-pytss bindings")
          (some (lit "a TPM is present at " ++ device ++
            lit " but tpm2-pytss is not importable; install the 'tpm' extra")))

/-- `TpmProvider.attest` -/
def tpmAttest (env : TpmEnv) (call : TpmAttestCall) : TpmProgram (Except TpmError AttestationReport) :=
  match tpmRequireHost env with
  | .error e => .ret (.error e)
  | .ok () => tpmCollect lib call

end

end

end Ca2a
