/-
The two ends of an attestation: what a verifier takes for hardware, a collector
asked for.

The devices sign for collectors only what their calls ask for (`tsm_run`,
`TpmDevice.trace_held`), and a verifier takes only what a device it trusts has
signed (`HardwareVerifier.backed_of_verifyOffer`). Where the digest has no
collision among what was hashed, the offer is for the key, the nonce and the
role of one call, on that platform.
-/
import Ca2a.TpmRun

namespace Ca2a

open Py

/-- The platform whose field the data goes to. -/
def TsmPlatform.field : TsmPlatform → Platform
  | .sevSnp => .snp
  | .tdx => .tdx

section
variable [Interp] [Crypto] {sdk : TpmSdk} {tools : SnpTools} {Signed : (akChainPem trustedRootsPem attest : Bytes) → Prop}

theorem TsmPlatform.binding_eq (platform : TsmPlatform) (call : AttestCall) :
    platform.binding call = platform.field.reportData call.publicKey call.nonce call.role := by
  cases platform <;> rfl

/-- **An accepted offer is for one of the bindings that were signed.** -/
theorem HardwareVerifier.asked_of_verifyOffer {ι : Type} (hsdk : sdk.Documented Signed) {hv : HardwareVerifier sdk tools}
    {hashed : Set Bytes} (hinj : hashed.InjOn Crypto.sha256) (hlength : ∀ octets ∈ hashed, (Crypto.sha256 octets).length = 32)
    {platform : ι → Platform} {publicKey nonce role : ι → Str}
    (hmem : ∀ i octets, hashedOctets (platform i) (role i) (publicKey i) (nonce i) = .ok octets → octets ∈ hashed)
    (hsigned : ∀ evidence field measurement, hv.Trusts Signed evidence → hv.Reads evidence field measurement →
      ∃ i, (platform i).reportData (publicKey i) (nonce i) (role i) = .ok field)
    {offer : ChannelOffer} {expected offered : Str} {required : Bool} {peer : VerifiedPeer}
    (hmem' : ∀ octets, hashedOctets hv.platform offered peer.publicKey expected = .ok octets → octets ∈ hashed)
    (h : verifyOffer offer expected (some hv.verify) required offered = .ok peer) (hhard : peer.assurance = .hardware) :
    ∃ i, platform i = hv.platform ∧ publicKey i = peer.publicKey ∧ nonce i = expected ∧ role i = offered := by
  obtain ⟨evidence, field, _, hbacked⟩ := backed_of_verifyOffer hsdk h hhard
  obtain ⟨i, hfield⟩ := hsigned evidence field _ hbacked.trusted hbacked.reads
  obtain ⟨hplatform, hrole, hkey, hnonce⟩ := reportData_inj hinj hlength (hmem i) hmem' hfield hbacked.binding
  exact ⟨i, hplatform, hkey, hnonce, hrole⟩

variable {ι : Type} [DecidableEq ι]

/-- **What is accepted was asked for.** With a digest that does not collide on what was hashed: after any run of collectors on
a TPM that the trusted roots stand for, an offer that `tpm_verifier` takes for hardware is for the key, the nonce and the
role of one of the calls, and its measurement is of the registers at a quote for a call; and after any run of collectors on a
guest whose reports the VCEK vouches for, an offer that `sev_snp_verifier` takes is for those of an SEV-SNP call. -/
theorem hardware_offer_asked (tools : SnpTools) (hsdk : sdk.Documented Signed) {hashed : Set Bytes}
    (hinj : hashed.InjOn Crypto.sha256) (hlength : ∀ octets ∈ hashed, (Crypto.sha256 octets).length = 32) :
    (∀ (device : TpmDevice) (lib : CertLib) (env : ι → TpmEnv) (calls : ι → TpmAttestCall) bank after progs
      trustedRootsPem,
      device.host.Run (.start bank, fun i => tpmAttest lib (env i) (calls i)) (after, progs) →
      (∀ chain attest quote, Signed chain trustedRootsPem attest → (TpmQuote.parse attest).result = .ok quote →
        ∃ quoted, (quote.qualifyingData, quoted) ∈ after.quoted ∧ quote.pcrDigest = quoted.digest) →
      (∀ i octets, hashedOctets .tpm (calls i).role (calls i).publicKey (calls i).nonce = .ok octets → octets ∈ hashed) →
      ∀ offer nonce required role peer,
        (∀ octets, hashedOctets .tpm role peer.publicKey nonce = .ok octets → octets ∈ hashed) →
        verifyOffer offer nonce (some (tpmVerifier sdk trustedRootsPem)) required role = .ok peer →
        peer.assurance = .hardware →
        (∃ i, calls i = ⟨peer.publicKey, nonce, role⟩) ∧
          ∃ data quoted, (data, quoted) ∈ after.quoted ∧ peer.measurement = lit "sha256:" ++ hex quoted.digest) ∧
    ∀ (driver : TsmDriver) (pki : TdxPki) (pem : pki.Cert → Bytes) (env : ι → TsmEnv) (platform : ι → TsmPlatform)
      (calls : ι → AttestCall) before after progs (req : SnpRequirements tools) verify, before.signed = [] →
      (∀ entry e, before.entries entry = some e → e.collectors = false) →
      driver.host.Run (before, fun i => (platform i).attest tools.toSnpLib pki pem (env i) (calls i)) (after, progs) →
      sevSnpVerifier tools req = .ok verify →
      (∀ evidence r, SevSnpReport.ofBytes tools.toSnpLib evidence = .ok r →
        SnpVouched tools req.vcekChain req.trustedRoots r → r.reportData ∈ after.signed) →
      (∀ i octets, hashedOctets (platform i).field (calls i).role (calls i).publicKey (calls i).nonce = .ok octets →
        octets ∈ hashed) →
      ∀ offer nonce required role peer,
        (∀ octets, hashedOctets .snp role peer.publicKey nonce = .ok octets → octets ∈ hashed) →
        verifyOffer offer nonce (some verify) required role = .ok peer → peer.assurance = .hardware →
        ∃ i, platform i = .sevSnp ∧ (calls i).publicKey = peer.publicKey ∧ (calls i).nonce = nonce ∧ (calls i).role = role := by
  refine ⟨fun device lib env calls bank after progs roots hrun hdevice hmem offer nonce required role peer hmem' h hhard => ?_,
    fun driver pki pem env platform calls before after progs req verify hempty hclean hrun hverifier hguest hmem offer nonce
      required role peer hmem' h hhard => ?_⟩
  · obtain ⟨log, htrace⟩ := hrun.exists_trace
    obtain ⟨held, hinv, _, _⟩ := device.trace_held htrace
    let hv : HardwareVerifier sdk tools := .tpm roots
    refine ⟨?_, ?_⟩
    · obtain ⟨i, _, hkey, hnonce, hrole⟩ : ∃ i, Platform.tpm = hv.platform ∧ (calls i).publicKey = peer.publicKey ∧
          (calls i).nonce = nonce ∧ (calls i).role = role := by
        refine HardwareVerifier.asked_of_verifyOffer hsdk hinj hlength hmem ?_ hmem' h hhard
        intro evidence field measurement htrusts hreads
        obtain ⟨chain, hsigned⟩ := htrusts
        obtain ⟨quote, hparse, rfl, _⟩ := hreads
        obtain ⟨quoted, hquoted, _⟩ := hdevice chain evidence quote hsigned hparse
        obtain ⟨i, hi⟩ := hinv.signed _ hquoted
        exact ⟨i, tpmStart_data.mp hi⟩
      exact ⟨i, by rw [← hkey, ← hnonce, ← hrole]⟩
    · obtain ⟨evidence, field, _, hbacked⟩ := hv.backed_of_verifyOffer hsdk h hhard
      obtain ⟨chain, hsigned⟩ := hbacked.trusted
      obtain ⟨quote, hparse, _, hmeasured⟩ := hbacked.reads
      obtain ⟨quoted, hquoted, hdigest⟩ := hdevice chain evidence quote hsigned hparse
      exact ⟨_, quoted, hquoted, hdigest ▸ hmeasured⟩
  · obtain ⟨⟨hmeasurement, hsvn⟩, rfl⟩ := sevSnpVerifier_ok_iff.mp hverifier
    let hv : HardwareVerifier sdk tools := .sevSnp req hmeasurement hsvn
    obtain ⟨i, hplatform, hkey, hnonce, hrole⟩ : ∃ i, (platform i).field = hv.platform ∧
        (calls i).publicKey = peer.publicKey ∧ (calls i).nonce = nonce ∧ (calls i).role = role := by
      refine HardwareVerifier.asked_of_verifyOffer hsdk hinj hlength hmem ?_ hmem' h hhard
      intro evidence field measurement htrusts hreads
      obtain ⟨r, hparse, hvouched⟩ := htrusts
      obtain ⟨r', hparse', rfl, _⟩ := hreads
      cases hparse.symm.trans hparse'
      obtain ⟨i, hi, _⟩ := (tsm_run driver hempty hclean hrun).2 _ (hguest evidence r hparse hvouched)
      exact ⟨i, ((platform i).binding_eq (calls i)).symm.trans hi⟩
    refine ⟨i, ?_, hkey, hnonce, hrole⟩
    cases hsnp : platform i with
    | sevSnp => rfl
    | tdx =>
      rw [hsnp] at hplatform
      cases hplatform

end

/-- Only one quote is accepted, and only under a chain that is the roots. -/
def quotedSdk (quoted : Bytes) : TpmSdk where
  parseTpmtSignature := toySdk.parseTpmtSignature
  verify := fun attest signature chain roots qualifyingData pcrDigest =>
    if attest = quoted then toySdk.verify attest signature chain roots qualifyingData pcrDigest else .ok false

theorem quotedSdk_documented (quoted : Bytes) :
    (quotedSdk quoted).Documented fun chain roots attest => chain = roots ∧ attest = quoted where
  signed := by
    intro attest signature chain roots qualifyingData pcrDigest h
    simp only [quotedSdk] at h
    split at h
    · rename_i hattest
      exact ⟨toySdk_documented.signed h, hattest⟩
    · cases h
  quoted := by
    intro attest signature chain roots qualifyingData pcrDigest quote h hparse
    simp only [quotedSdk] at h
    split at h
    · exact toySdk_documented.quoted h hparse
    · cases h

/-- A call to the TPM that runs to its end, and the offer that is made of what it returned. -/
theorem exists_quoted_offer :
    let _ := Interp.ascii
    let _ := Crypto.prefixDigest
    ∃ attest quote quoted after progs report peer, provisionedTpm.host.Run
        (.start freshBank, fun b => tpmAttest ownCerts (twoHosts b) plainCall) (after, progs) ∧
      progs true = .ret (.ok report) ∧ (TpmQuote.parse attest).result = .ok quote ∧
      (quote.qualifyingData, quoted) ∈ after.quoted ∧ quote.pcrDigest = quoted.digest ∧
      verifyOffer ⟨lit "k", report⟩ (lit "n") (some (tpmVerifier (quotedSdk attest) [7])) true roleCallee = .ok peer ∧
      peer.publicKey = lit "k" ∧ peer.assurance = .hardware := by
  intro _ _
  obtain ⟨after, progs, report, hrun, hret, hchain⟩ := exists_run_twoHosts
  obtain ⟨log, htrace⟩ := hrun.exists_trace
  obtain ⟨held, hinv, _, hreturned⟩ := provisionedTpm.trace_held htrace
  obtain ⟨attest, signature, pem, quote, read, quoted, _, hheld, hevidence⟩ := (hreturned true _ hret).report report rfl
  obtain ⟨d, hd, hmem⟩ := (hinv.own true).quoted quoted hheld
  cases (tpmStart_data.mp hd).symm.trans hevidence.binding
  have hdigest : quote.pcrDigest = quoted.digest := provisionedTpm_quotesRegisters hevidence.signed hevidence.parsed
  -- the chain that the report carries is the roots
  have hverify : (quotedSdk attest).verify attest (.parsed ⟨algRsassa, algSha256, signature⟩) [7] [7]
      (some quote.qualifyingData) none = .ok true := by
    simp [quotedSdk, toySdk, hevidence.parsed, hevidence.generated]
  have hmeasured : verifyTpmReport (quotedSdk attest) [7] report (lit "n") = .ok report.measurement :=
    (hevidence.verified_iff _ _ _).mpr ⟨rfl, by simp, [7], _, hchain, rfl, hverify⟩
  obtain ⟨hplatform, hkey, hnonce, hrole⟩ := hevidence.named
  have hhard : report.platform ≠ softwareOnly := by
    rw [hplatform]
    decide
  have haccepted : verifyOffer ⟨lit "k", report⟩ (lit "n") (some (tpmVerifier (quotedSdk attest) [7])) true roleCallee =
      .ok ⟨lit "k", .hardware, report.measurement⟩ := by
    refine verifyOffer_requireHardware.mpr ⟨verifyOffer_ok_iff.mpr ⟨hrole, hkey, hnonce, rfl, ?_⟩, fun _ => hhard⟩
    rw [if_neg hhard]
    exact ⟨rfl, _, rfl, hmeasured⟩
  exact ⟨attest, quote, quoted, after, progs, report, _, hrun, hret, hevidence.parsed, hmem, hdigest, haccepted, rfl, rfl⟩

/-- A call to the guest that runs to its end, and the offer that is made of what it returned. -/
theorem exists_guest_offer :
    let _ := Interp.ascii
    let _ := Crypto.prefixDigest
    ∃ field after progs report peer, plainDriver.host.Run
        (TsmFs.empty, fun b => TsmPlatform.attest (guestTools field).toSnpLib custodyPki id
          (bif b then anyHost else otherHost) .sevSnp snpCall) (after, progs) ∧
      progs true = .ret (.ok report) ∧ field ∈ after.signed ∧
      verifyOffer ⟨lit "k", report⟩ (lit "n") (some ((guestRequirements field).verify (guestTools field))) true roleCallee =
        .ok peer ∧
      peer.publicKey = lit "k" ∧ peer.assurance = .hardware := by
  intro _ _
  obtain ⟨field, hbinding, hlength⟩ := snpReportData_plain
  obtain ⟨after, hrun, hsigned⟩ := exists_run_sevSnpAttest (guestTools field).toSnpLib snpCall
    (sevSnpAttest (guestTools field).toSnpLib otherHost snpCall) hbinding hlength
  rw [← attests_sideBySide (guestTools field).toSnpLib custodyPki id] at hrun
  have hdata : slice field 0 64 = field := by
    rw [← hlength]
    exact List.take_length
  obtain ⟨report, hreport⟩ : ∃ report, sevSnpEvidence (guestTools field).toSnpLib snpCall field field = .ok report :=
    ⟨_, by rw [sevSnpEvidence, SevSnpReport.ofBytes]; exact if_neg (not_not.mpr hdata)⟩
  obtain ⟨r, hr, _, hplatform, hkey, hnonce, hrole, hraw, _⟩ := sevSnpEvidence_ok hreport
  cases hr
  have hkey : report.publicKey = lit "k" := hkey
  have hnonce : report.nonce = lit "n" := hnonce
  have hrole : report.role = roleCallee := hrole
  have haccepted := verifyOffer_guest hlength report hplatform hraw (by rw [hkey, hnonce, hrole]; exact hbinding) true
  rw [hkey, hnonce, hrole] at haccepted
  exact ⟨field, after, _, report, _, hrun, congrArg _ hreport, hsigned, haccepted, rfl, rfl⟩

/-- A call on each platform, and the offer that is made of what it returned. -/
theorem hardware_offer_asked_twoHosts :
    let _ := Interp.ascii
    let _ := Crypto.prefixDigest
    (∃ attest after progs report peer, provisionedTpm.host.Run
        (.start freshBank, fun b => tpmAttest ownCerts (twoHosts b) plainCall) (after, progs) ∧
      progs true = .ret (.ok report) ∧
      verifyOffer ⟨lit "k", report⟩ (lit "n") (some (tpmVerifier (quotedSdk attest) [7])) true roleCallee = .ok peer ∧
      (∃ _ : Bool, plainCall = ⟨peer.publicKey, lit "n", roleCallee⟩) ∧
      ∃ data quoted, (data, quoted) ∈ after.quoted ∧ peer.measurement = lit "sha256:" ++ hex quoted.digest) ∧
    ∃ field after progs report peer, plainDriver.host.Run
        (TsmFs.empty, fun b => TsmPlatform.attest (guestTools field).toSnpLib custodyPki id
          (bif b then anyHost else otherHost) .sevSnp snpCall) (after, progs) ∧
      progs true = .ret (.ok report) ∧
      verifyOffer ⟨lit "k", report⟩ (lit "n") (some ((guestRequirements field).verify (guestTools field))) true roleCallee =
        .ok peer ∧
      ∃ _ : Bool, snpCall.publicKey = peer.publicKey ∧ snpCall.nonce = lit "n" ∧ snpCall.role = roleCallee := by
  intro _ _
  have honly : ∀ platform, ∃ octets, ∀ octets', hashedOctets platform roleCallee (lit "k") (lit "n") = .ok octets' →
      octets' ∈ ({octets} : Set Bytes) := by
    intro platform
    obtain ⟨octets, hoctets⟩ : ∃ octets, hashedOctets platform roleCallee (lit "k") (lit "n") = .ok octets := by
      cases platform <;> exact ⟨_, rfl⟩
    exact ⟨octets, fun octets' h => Except.ok.inj (h.symm.trans hoctets)⟩
  have hinj : ∀ octets, ({octets} : Set Bytes).InjOn Crypto.sha256 := fun octets => Set.injOn_singleton _ octets
  refine ⟨?_, ?_⟩
  · obtain ⟨attest, quote, quoted, after, progs, report, peer, hrun, hret, hparsed, hmem, hdigest, haccepted, hkey, hhard⟩ :=
      exists_quoted_offer
    obtain ⟨octets, honly⟩ := honly .tpm
    have hasked := (hardware_offer_asked (guestTools []) (quotedSdk_documented attest) (hinj octets)
      fun o _ => prefixDigest_length o).1 provisionedTpm ownCerts twoHosts (fun _ => plainCall) freshBank after progs [7] hrun
    obtain ⟨hcall, data, bank, hquoted, hmeasurement⟩ := hasked (fun chain attest' quote' hsigned hparse => by
      obtain ⟨_, rfl⟩ := hsigned
      cases hparsed.symm.trans hparse
      exact ⟨quoted, hmem, hdigest⟩) (fun _ => honly) _ _ _ _ _ (hkey ▸ honly) haccepted hhard
    exact ⟨attest, after, progs, report, peer, hrun, hret, haccepted, hcall, data, bank, hquoted, hmeasurement⟩
  · obtain ⟨field, after, progs, report, peer, hrun, hret, hsigned, haccepted, hkey, hhard⟩ := exists_guest_offer
    obtain ⟨octets, honly⟩ := honly .snp
    have hverifier : sevSnpVerifier (guestTools field) (guestRequirements field) =
        .ok ((guestRequirements field).verify (guestTools field)) :=
      sevSnpVerifier_ok_iff.mpr ⟨⟨List.length_replicate, le_refl _, (by decide : (0 : Int) ≤ 0xFFFFFFFF)⟩, rfl⟩
    have hasked := (hardware_offer_asked (guestTools field) (quotedSdk_documented []) (hinj octets)
      fun o _ => prefixDigest_length o).2 plainDriver custodyPki id (fun b => bif b then anyHost else otherHost)
        (fun _ => .sevSnp) (fun _ => snpCall) TsmFs.empty after progs (guestRequirements field) _ rfl
        (by simp [TsmFs.empty]) hrun hverifier
    obtain ⟨b, _, hcall⟩ := hasked (fun evidence r hparse hvouched => by
      rw [reportData_of_guest hparse hvouched]
      exact hsigned) (fun _ => honly) _ _ _ _ _ (hkey ▸ honly) haccepted hhard
    exact ⟨field, after, progs, report, peer, hrun, hret, haccepted, b, hcall⟩

end Ca2a
