/-
`SevSnpProvider.attest` and `TdxProvider.attest`: a report from configfs.

Both check the host, derive the binding, collect a report over it and read
the binding back out of what came. The read-back is not what keeps two calls
apart, `tsm_collectors` is; it says that the platform put the data where a
verifier will look for it.
-/
import Ca2a.TdxAppraisal
import Ca2a.Tsm

namespace Ca2a

open Py

/-! ## The host -/

/-- What the providers look up of the host: `sys.platform`, and which paths exist. -/
structure TsmEnv where
  platform : Str
  isDir : Str → Bool
  present : Str → Bool

/-- `raise AttestationUnsupported(message, detail=detail)` -/
def unsupported {α : Type} (message detail : Str) : Except CollectError α := .error (.unsupported message (some detail))

/-- `tsm_available` -/
def tsmAvailable (env : TsmEnv) : Bool := env.platform = lit "linux" && env.isDir tsmReportDir

/-- `require_tsm` -/
def requireTsm (env : TsmEnv) (platform : Str) : Except CollectError Unit :=
  if env.platform ≠ lit "linux" then
    unsupported (platform ++ lit " report generation is only implemented on Linux")
      (lit "running on " ++ env.platform ++ lit "; configfs-TSM is a Linux interface")
  else if env.isDir tsmReportDir = false then
    unsupported (platform ++ lit " report generation requires the configfs-TSM interface")
      (tsmReportDir ++ lit " is not present; it needs kernel 6.7+ with a registered TSM provider, and configfs mounted")
  else .ok ()

/-- The `detect` of a provider with a device node. -/
def detectDevice (device : Str) (env : TsmEnv) : Bool := tsmAvailable env && env.present device

/-- The `_require_host` of a provider with a device node. -/
def requireDevice (platform device message detail : Str) (env : TsmEnv) : Except CollectError Unit := do
  requireTsm env platform
  if env.present device = false then unsupported message detail else .ok ()

/-- `SEV_GUEST_DEVICE` -/
def sevGuestDevice : Str := lit "/dev/sev-guest"

/-- `TDX_GUEST_DEVICE` -/
def tdxGuestDevice : Str := lit "/dev/tdx_guest"

/-- `SevSnpProvider.detect` -/
def sevSnpDetect (env : TsmEnv) : Bool := detectDevice sevGuestDevice env

/-- `TdxProvider.detect` -/
def tdxDetect (env : TsmEnv) : Bool := detectDevice tdxGuestDevice env

/-- `SevSnpProvider._require_host` -/
def sevSnpRequireHost (env : TsmEnv) : Except CollectError Unit :=
  requireDevice (lit "SEV-SNP") sevGuestDevice (lit "SEV-SNP report generation requires a non-paravisor SNP guest")
    (lit "configfs-TSM is present but " ++ sevGuestDevice ++ lit " is not. On an Azure confidential VM this is expected: " ++
      lit "SNP runs behind a Hyper-V paravisor, the guest cannot set REPORT_DATA, and the report is read from a vTPM NV " ++
      lit "index instead. Use the tpm provider there.") env

/-- `TdxProvider._require_host` -/
def tdxRequireHost (env : TsmEnv) : Except CollectError Unit :=
  requireDevice (lit "TDX") tdxGuestDevice (lit "TDX quote generation requires a non-paravisor TDX guest")
    (lit "configfs-TSM is present but " ++ tdxGuestDevice ++
      lit " is not, so the tdx_guest driver has not registered a TSM provider on this host") env

/-! ## The evidence -/

/-- `SevSnpReport`: the report of `agent_manifest`. -/
structure SevSnpReport where
  version : Nat
  guestSvn : Nat
  policy : Nat
  vmpl : Nat
  signatureAlgo : Nat
  measurement : Bytes
  reportData : Bytes
  raw : Bytes

/-- What `agent_manifest` knows of SEV-SNP: `parse_snp_report`, or the text of the `SnpVerificationError` it raises, and
the table of offsets. -/
structure SnpLib where
  parse : Bytes → Except Str SevSnpReport
  sigOffset : Nat

/-- `SIG_COMPONENT_LEN` -/
def sigComponentLen : Nat := 72

/-- `SevSnpReport.parse` -/
def SevSnpReport.ofBytes (lib : SnpLib) (blob : Bytes) : Result SevSnpReport :=
  match lib.parse blob with
  | .ok shared => .ok shared
  | .error exc => raise .attestationFailed (lit "SEV-SNP report is malformed") (some exc)

/-- Bytes, or nothing when there are none. -/
def orNone (b : Bytes) : Option Bytes := if b = [] then none else some b

/-- A call of `attest`, with the process and the token of its entry. -/
structure AttestCall where
  publicKey : Str
  nonce : Str
  role : Str
  pid : Nat
  token : Bytes

/-- What `SevSnpProvider.attest` makes of a report it collected. -/
def sevSnpEvidence (lib : SnpLib) (call : AttestCall) (expected outblob : Bytes) : Except CollectError AttestationReport := do
  let report ← (SevSnpReport.ofBytes lib outblob).mapError .raised
  if report.reportData ≠ expected then
    collectFailed (lit "the report does not commit the requested key and nonce binding")
      (lit "REPORT_DATA does not match the derived binding")
  else
    .ok
      { platform := lit "sev-snp"
        measurement := lit "sha384:" ++ hex report.measurement
        publicKey := call.publicKey
        nonce := call.nonce
        rawEvidence := some report.raw
        quoteSignature := some (slice report.raw lib.sigOffset (lib.sigOffset + 2 * sigComponentLen))
        role := call.role }

/-- What `TdxProvider.attest` makes of a quote it collected; `pem` is `cert.public_bytes(Encoding.PEM)`. -/
def tdxEvidence (pki : TdxPki) (pem : pki.Cert → Bytes) (call : AttestCall) (expected outblob : Bytes) :
    Except CollectError AttestationReport := do
  let quote ← (TdxQuote.parse pki.loadPem outblob).mapError .raised
  if quote.teeType ≠ teeTypeTdx then
    collectFailed (lit "the quote is not a TDX quote")
      (lit "tee_type=0x" ++ (Nat.toDigits 16 quote.teeType).map cp ++ lit ", expected 0x" ++
        (Nat.toDigits 16 teeTypeTdx).map cp)
  else if quote.reportData ≠ expected then
    collectFailed (lit "the quote does not commit the requested key and nonce binding")
      (lit "REPORTDATA does not match the derived binding")
  else
    .ok
      { platform := lit "tdx"
        measurement := lit "sha384:" ++ hex quote.measurement
        publicKey := call.publicKey
        nonce := call.nonce
        rawEvidence := some outblob
        quoteSignature := some quote.quoteSignature
        attestationKeyChainPem := orNone (quote.pckChain.flatMap pem)
        role := call.role }

section
variable [Interp]

/-- `attest` of a provider that collects through configfs. -/
def attestThrough (host : Except CollectError Unit) (binding : Result Bytes) (provider : Str) (call : AttestCall)
    (evidence : (expected outblob : Bytes) → Except CollectError AttestationReport) : Collector AttestationReport :=
  match host with
  | .error e => .ret (.error e)
  | .ok () =>
    match binding with
    | .error e => .ret (.error (.raised e))
    | .ok expected =>
      (collectReport expected provider call.pid call.token).andThen fun collected =>
        .ret (collected.bind fun blobs => evidence expected blobs.1)

variable [Crypto]

/-- `SevSnpProvider.attest` -/
def sevSnpAttest (lib : SnpLib) (env : TsmEnv) (call : AttestCall) : Collector AttestationReport :=
  attestThrough (sevSnpRequireHost env) (snpReportData call.publicKey call.nonce call.role) providerSevGuest call
    (sevSnpEvidence lib call)

/-- `TdxProvider.attest` -/
def tdxAttest (pki : TdxPki) (pem : pki.Cert → Bytes) (env : TsmEnv) (call : AttestCall) : Collector AttestationReport :=
  attestThrough (tdxRequireHost env) (tdxReportData call.publicKey call.nonce call.role) providerTdxGuest call
    (tdxEvidence pki pem call)

end

/-! ## The host check -/

/-- **`detect` and `attest` agree on the host**: the check passes where the platform is detected, and elsewhere says that
it is unsupported. -/
theorem requireDevice_iff {platform device message detail : Str} {env : TsmEnv} :
    (requireDevice platform device message detail env = .ok () ↔ detectDevice device env = true) ∧
      ∀ e, requireDevice platform device message detail env = .error e → ∃ m d, e = .unsupported m d := by
  simp only [requireDevice, requireTsm, detectDevice, tsmAvailable, unsupported]
  by_cases hlinux : env.platform = lit "linux"
  · cases env.isDir tsmReportDir with
    | false => simp [hlinux, bind, Except.bind]
    | true => cases env.present device <;> simp [hlinux, bind, Except.bind]
  · simp [hlinux, bind, Except.bind]

/-! ## Either platform -/

/-- The platforms that report through configfs. -/
inductive TsmPlatform
  | sevSnp
  | tdx

namespace TsmPlatform

/-- `platform` -/
def name : TsmPlatform → Str
  | .sevSnp => lit "sev-snp"
  | .tdx => lit "tdx"

/-- The provider the collector expects. -/
def provider : TsmPlatform → Str
  | .sevSnp => providerSevGuest
  | .tdx => providerTdxGuest

/-- `detect` -/
def detect : TsmPlatform → TsmEnv → Bool
  | .sevSnp => sevSnpDetect
  | .tdx => tdxDetect

/-- `_require_host` -/
def requireHost : TsmPlatform → TsmEnv → Except CollectError Unit
  | .sevSnp => sevSnpRequireHost
  | .tdx => tdxRequireHost

/-- What the report says, read out of the blob that the platform signed. -/
def Evidence (lib : SnpLib) (pki : TdxPki) (expected outblob : Bytes) (report : AttestationReport) : TsmPlatform → Prop
  | .sevSnp => ∃ r, SevSnpReport.ofBytes lib outblob = .ok r ∧ r.reportData = expected ∧
      report.rawEvidence = some r.raw ∧ report.measurement = lit "sha384:" ++ hex r.measurement
  | .tdx => ∃ q, TdxQuote.parse pki.loadPem outblob = .ok q ∧ q.teeType = teeTypeTdx ∧ q.reportData = expected ∧
      report.rawEvidence = some outblob ∧ report.measurement = lit "sha384:" ++ hex q.measurement

section
variable [Interp] [Crypto]

/-- The binding of a call. -/
def binding (platform : TsmPlatform) (call : AttestCall) : Result Bytes :=
  match platform with
  | .sevSnp => snpReportData call.publicKey call.nonce call.role
  | .tdx => tdxReportData call.publicKey call.nonce call.role

/-- `attest` -/
def attest (lib : SnpLib) (pki : TdxPki) (pem : pki.Cert → Bytes) (env : TsmEnv) :
    TsmPlatform → AttestCall → Collector AttestationReport
  | .sevSnp => sevSnpAttest lib env
  | .tdx => tdxAttest pki pem env

end

theorem requireHost_iff (platform : TsmPlatform) (env : TsmEnv) :
    (platform.requireHost env = .ok () ↔ platform.detect env = true) ∧
      ∀ e, platform.requireHost env = .error e → ∃ m d, e = .unsupported m d := by
  cases platform
  · exact requireDevice_iff
  · exact requireDevice_iff

end TsmPlatform

/-- The report is the call's, over its own binding. -/
structure Attests (lib : SnpLib) (pki : TdxPki) (driver : TsmDriver) [Interp] [Crypto] (platform : TsmPlatform)
    (call : AttestCall) (report : AttestationReport) : Prop where
  platform_eq : report.platform = platform.name
  publicKey_eq : report.publicKey = call.publicKey
  nonce_eq : report.nonce = call.nonce
  role_eq : report.role = call.role
  evidence : ∃ expected outblob, platform.binding call = .ok expected ∧ driver.Reports expected outblob ∧
    platform.provider = strip driver.provider ∧ platform.Evidence lib pki expected outblob report

theorem sevSnpEvidence_ok {lib : SnpLib} {call : AttestCall} {expected outblob : Bytes} {report : AttestationReport}
    (h : sevSnpEvidence lib call expected outblob = .ok report) :
    ∃ r, SevSnpReport.ofBytes lib outblob = .ok r ∧ r.reportData = expected ∧ report.platform = lit "sev-snp" ∧
      report.publicKey = call.publicKey ∧ report.nonce = call.nonce ∧ report.role = call.role ∧
      report.rawEvidence = some r.raw ∧ report.measurement = lit "sha384:" ++ hex r.measurement := by
  rw [sevSnpEvidence, bind_ok_iff] at h
  obtain ⟨r, hr, h⟩ := h
  rw [mapError_ok_iff] at hr
  split at h
  · cases h
  · rename_i hdata
    cases h
    exact ⟨r, hr, not_not.mp hdata, rfl, rfl, rfl, rfl, rfl, rfl⟩

theorem tdxEvidence_ok {pki : TdxPki} {pem : pki.Cert → Bytes} {call : AttestCall} {expected outblob : Bytes}
    {report : AttestationReport} (h : tdxEvidence pki pem call expected outblob = .ok report) :
    ∃ q, TdxQuote.parse pki.loadPem outblob = .ok q ∧ q.teeType = teeTypeTdx ∧ q.reportData = expected ∧
      report.platform = lit "tdx" ∧ report.publicKey = call.publicKey ∧ report.nonce = call.nonce ∧
      report.role = call.role ∧ report.rawEvidence = some outblob ∧
      report.measurement = lit "sha384:" ++ hex q.measurement := by
  rw [tdxEvidence, bind_ok_iff] at h
  obtain ⟨q, hq, h⟩ := h
  rw [mapError_ok_iff] at hq
  split at h
  · cases h
  · rename_i htype
    split at h
    · cases h
    · rename_i hdata
      cases h
      exact ⟨q, hq, not_not.mp htype, not_not.mp hdata, rfl, rfl, rfl, rfl, rfl, rfl⟩

/-! ## Calls side by side -/

section
variable [Interp]

/-- What a provider's call comes to. -/
structure CollectedFor (driver : TsmDriver) (binding : Result Bytes) (provider : Str)
    (evidence : (expected outblob : Bytes) → Except CollectError AttestationReport)
    (result : Except CollectError AttestationReport) : Prop where
  report : ∀ report, result = .ok report → ∃ expected outblob, binding = .ok expected ∧
    provider = strip driver.provider ∧ driver.Reports expected outblob ∧ evidence expected outblob = .ok report

/-- **One call**, started with the binding it will ask for. Where there is none it asks for nothing, whatever it is
taken to want. -/
theorem attestThrough_meets (driver : TsmDriver) {host : Except CollectError Unit} {binding : Result Bytes}
    {provider : Str} {call : AttestCall} {evidence : (expected outblob : Bytes) → Except CollectError AttestationReport}
    {o : TsmHeld} (hnothing : o.hold = .nothing)
    (hcalled : ∀ expected, binding = .ok expected → o.data = expected ∧ o.expect = provider) :
    (attestThrough host binding provider call evidence).Meets driver.discipline
      (fun result _ => CollectedFor driver binding provider evidence result) o := by
  unfold attestThrough
  cases host with
  | error e => exact ⟨by simp⟩
  | ok u =>
    cases binding with
    | error e => exact ⟨by simp⟩
    | ok expected =>
      obtain ⟨data, expect, hold⟩ := o
      obtain ⟨rfl, rfl⟩ := hcalled _ rfl
      cases hnothing
      refine ((collectReport_meets driver data expect call.pid call.token).mono fun result o' h => ?_).andThen
      refine ⟨fun report hreport => ?_⟩
      cases result with
      | error e => cases hreport
      | ok blobs =>
        obtain ⟨_, hexpect, hreports, _⟩ := h.report blobs.1 blobs.2 rfl
        exact ⟨data, blobs.1, rfl, hexpect, hreports, hreport⟩

variable [Crypto] {ι : Type}

/-- What a call is taken to want: its binding from its provider, or nothing that this platform could be asked for. -/
def TsmPlatform.wants (driver : TsmDriver) (platform : TsmPlatform) (call : AttestCall) : TsmHeld :=
  match platform.binding call with
  | .ok expected => ⟨expected, platform.provider, .nothing⟩
  | .error _ => ⟨[], cp '-' :: strip driver.provider, .nothing⟩

theorem TsmPlatform.attest_meets (driver : TsmDriver) (lib : SnpLib) (pki : TdxPki) (pem : pki.Cert → Bytes)
    (env : TsmEnv) (platform : TsmPlatform) (call : AttestCall) :
    (platform.attest lib pki pem env call).Meets driver.discipline
      (fun result _ => ∀ report, result = .ok report → Attests lib pki driver platform call report)
      (platform.wants driver call) := by
  have hcalled : ∀ expected, platform.binding call = .ok expected →
      (platform.wants driver call).data = expected ∧ (platform.wants driver call).expect = platform.provider := by
    intro expected h
    rw [wants, h]
    exact ⟨rfl, rfl⟩
  have hnothing : (platform.wants driver call).hold = .nothing := by
    rw [wants]
    split <;> rfl
  cases platform with
  | sevSnp =>
    refine (attestThrough_meets driver hnothing hcalled).mono fun result _ h report hreport => ?_
    obtain ⟨expected, outblob, hbinding, hprovider, hreports, hevidence⟩ := h.report report hreport
    obtain ⟨r, hr, hdata, hplatform, hkey, hnonce, hrole, hraw, hmeasurement⟩ := sevSnpEvidence_ok hevidence
    exact ⟨hplatform, hkey, hnonce, hrole, expected, outblob, hbinding, hreports, hprovider, r, hr, hdata, hraw,
      hmeasurement⟩
  | tdx =>
    refine (attestThrough_meets driver hnothing hcalled).mono fun result _ h report hreport => ?_
    obtain ⟨expected, outblob, hbinding, hprovider, hreports, hevidence⟩ := h.report report hreport
    obtain ⟨q, hq, htype, hdata, hplatform, hkey, hnonce, hrole, hraw, hmeasurement⟩ := tdxEvidence_ok hevidence
    exact ⟨hplatform, hkey, hnonce, hrole, expected, outblob, hbinding, hreports, hprovider, q, hq, htype, hdata, hraw,
      hmeasurement⟩

omit [Interp] in
/-- The binding an attested quote carries is not what an appraisal refuses it for. -/
theorem verifyTdxQuote_binding {pki : TdxPki} {outblob expected : Bytes} {q : TdxQuote pki.Cert}
    (hq : TdxQuote.parse pki.loadPem outblob = .ok q) (hdata : q.reportData = expected) (roots : List pki.Cert)
    (mrtd : Option Bytes) :
    verifyTdxQuote pki outblob roots mrtd (some expected) = verifyTdxQuote pki outblob roots mrtd none := by
  simp only [verifyTdxQuote, hq, ok_bind, appraise, hdata, Option.any_some, Option.any_none, ne_eq, not_true_eq_false,
    decide_false, Bool.false_eq_true, if_false]

variable [DecidableEq ι]

/-- A run of calls: each report is the caller's, and what was signed was asked for. -/
theorem tsm_run (driver : TsmDriver) {lib : SnpLib} {pki : TdxPki} {pem : pki.Cert → Bytes} {env : ι → TsmEnv}
    {platform : ι → TsmPlatform} {calls : ι → AttestCall} {before after : TsmFs}
    {progs : ι → Collector AttestationReport} (hsigned : before.signed = [])
    (hclean : ∀ entry e, before.entries entry = some e → e.collectors = false)
    (hrun : driver.host.Run (before, fun i => (platform i).attest lib pki pem (env i) (calls i)) (after, progs)) :
    (∀ i report, progs i = .ret (.ok report) → Attests lib pki driver (platform i) (calls i) report) ∧
    ∀ d ∈ after.signed, ∃ i, (platform i).binding (calls i) = .ok d ∧ (platform i).provider = strip driver.provider := by
  have hnothing : ∀ i, ((platform i).wants driver (calls i)).hold = .nothing := by
    intro i
    rw [TsmPlatform.wants]
    split <;> rfl
  have hstart : TsmInv driver (fun i => ((platform i).wants driver (calls i)).data)
      (fun i => ((platform i).wants driver (calls i)).expect) before fun i => (platform i).wants driver (calls i) := by
    refine ⟨fun _ => ⟨rfl, rfl⟩, fun i _ _ h => ?_, fun i _ h => ?_, fun i _ _ h => ?_, fun name b h => ?_, by
      simp [hsigned]⟩
    · cases (hnothing i).symm.trans h
    · cases (hnothing i).symm.trans h
    · rw [hnothing i] at h
      exact h.elim
    · cases hclean _ _ h
  obtain ⟨held, hinv, hmeets⟩ := driver.kept.run hrun hstart fun i =>
    (platform i).attest_meets driver lib pki pem (env i) (calls i)
  have hattests : ∀ i report, progs i = .ret (.ok report) → Attests lib pki driver (platform i) (calls i) report := by
    intro i report hret
    have hpost := hmeets i
    simp only [hret] at hpost
    exact hpost report rfl
  refine ⟨hattests, fun d hd => ?_⟩
  obtain ⟨i, hdata, hexpect⟩ := hinv.signed d hd
  refine ⟨i, ?_⟩
  cases hbinding : (platform i).binding (calls i) with
  | error e =>
    simp only [TsmPlatform.wants, hbinding] at hexpect
    exact absurd hexpect (List.cons_ne_self _ _)
  | ok expected =>
    simp only [TsmPlatform.wants, hbinding] at hdata hexpect
    exact ⟨by rw [hdata], hexpect⟩

/-- **Attesting side by side.** However many calls of `attest` a host serves at once, for whichever keys, nonces, roles
and platforms: each report is the caller's own, its evidence read out of what the platform signed over the caller's
binding, and for TDX an appraisal that expects the binding of the report's own fields never refuses it for them; the
platform signs only bindings that were asked of it; and a provider that does not detect the host asks nothing of it. -/
theorem tsm_attest (driver : TsmDriver) (lib : SnpLib) (pki : TdxPki) (pem : pki.Cert → Bytes) {env : ι → TsmEnv}
    {platform : ι → TsmPlatform} {calls : ι → AttestCall} {before after : TsmFs}
    {progs : ι → Collector AttestationReport} (hsigned : before.signed = [])
    (hclean : ∀ entry e, before.entries entry = some e → e.collectors = false)
    (hrun : driver.host.Run (before, fun i => (platform i).attest lib pki pem (env i) (calls i)) (after, progs)) :
    (∀ i report, progs i = .ret (.ok report) → Attests lib pki driver (platform i) (calls i) report) ∧
    (∀ i report, progs i = .ret (.ok report) → platform i = .tdx → ∃ evidence expected,
      report.rawEvidence = some evidence ∧ tdxReportData report.publicKey report.nonce report.role = .ok expected ∧
      ∀ roots mrtd, verifyTdxQuote pki evidence roots mrtd (some expected) = verifyTdxQuote pki evidence roots mrtd none) ∧
    (∀ d ∈ after.signed, ∃ i, (platform i).binding (calls i) = .ok d ∧ (platform i).provider = strip driver.provider) ∧
    ∀ i, ((platform i).detect (env i) = true ↔ (platform i).requireHost (env i) = .ok ()) ∧
      ((platform i).detect (env i) = false → ∃ m d, progs i = .ret (.error (.unsupported m d))) := by
  obtain ⟨hattests, hsigns⟩ := tsm_run driver hsigned hclean hrun
  refine ⟨hattests, fun i report hret htdx => ?_, hsigns,
    fun i => ⟨((platform i).requireHost_iff _).1.symm, fun hdetect => ?_⟩⟩
  · have h := hattests i report hret
    rw [htdx] at h
    obtain ⟨expected, outblob, hbinding, _, _, q, hq, _, hdata, hraw, _⟩ := h.evidence
    refine ⟨outblob, expected, hraw, ?_, verifyTdxQuote_binding hq hdata⟩
    rw [h.publicKey_eq, h.nonce_eq, h.role_eq]
    exact hbinding
  · cases hrequire : (platform i).requireHost (env i) with
    | ok u =>
      rw [((platform i).requireHost_iff _).1.mp hrequire] at hdetect
      cases hdetect
    | error e =>
      obtain ⟨m, d, rfl⟩ := ((platform i).requireHost_iff _).2 e hrequire
      refine ⟨m, d, hrun.returned ?_⟩
      cases hplatform : platform i with
      | sevSnp =>
        rw [hplatform] at hrequire
        have hrequire' : sevSnpRequireHost (env i) = .error (.unsupported m d) := hrequire
        simp only [hplatform, TsmPlatform.attest, sevSnpAttest, attestThrough, hrequire']
      | tdx =>
        rw [hplatform] at hrequire
        have hrequire' : tdxRequireHost (env i) = .error (.unsupported m d) := hrequire
        simp only [hplatform, TsmPlatform.attest, tdxAttest, attestThrough, hrequire']

end

/-! ## A call that is left alone -/

/-- A collector that nothing fails gets a report over its data. -/
theorem run_collected [Interp] {α : Type} {driver : TsmDriver} {data outblob : Bytes} {expect : Str} {pid : Nat}
    {token : Bytes} {f : Except CollectError (Bytes × Option Bytes) → Collector α} {q : Collector α} {s : TsmFs}
    (hlength : data.length ≤ reportDataLen) (hfree : s.entries (tsmEntry pid token) = none)
    (hprovider : strip driver.provider = expect) (hreports : driver.Reports data outblob) (hne : outblob ≠ []) :
    ∃ s', driver.host.Run (s, sideBySide ((collectReport data expect pid token).andThen f) q)
      (s', sideBySide (f (.ok (outblob, none))) q) ∧ data ∈ s'.signed := by
  let made := s.set (tsmEntry pid token) (some ⟨none, true⟩)
  let written := made.set (tsmEntry pid token) (some ⟨some data, true⟩)
  refine ⟨(written.sign data).set (tsmEntry pid token) none, ?_, by simp⟩
  rw [collectReport, if_neg (not_lt.mpr hlength)]
  refine run_left made (.ok ()) ⟨hfree, rfl⟩ ?_
  refine run_left written (.ok ()) ⟨_, TsmFs.set_entries_self _ _ _, rfl⟩ ?_
  refine run_left written (.ok driver.provider) ⟨by simp [written], rfl, rfl⟩ ?_
  dsimp only
  rw [if_neg (not_not.mpr hprovider)]
  refine run_left (written.sign data) (.ok outblob) ⟨_, _, TsmFs.set_entries_self _ _ _, rfl, hreports, rfl⟩ ?_
  dsimp only
  rw [if_neg hne]
  refine run_left (written.sign data) (.error ⟨lit "FileNotFoundError", []⟩) rfl ?_
  refine run_left _ (.ok ()) ⟨by simp [written], rfl⟩ ?_
  exact .refl

/-- A guest that reports the data alone. -/
def plainDriver : TsmDriver where
  provider := lit "sev_guest\n"
  Reports := fun data report => report = data

/-- Reports that are their data. -/
def plainSnp : SnpLib where
  parse := fun blob => .ok ⟨2, 0, 0, 0, 1, [], blob, blob⟩
  sigOffset := 0

/-- A host with everything. -/
def anyHost : TsmEnv where
  platform := lit "linux"
  isDir := fun _ => true
  present := fun _ => true

/-- One call runs alone to its end, whatever the other would do. -/
theorem exists_run_sevSnpAttest (lib : SnpLib) (call : AttestCall) (other : Collector AttestationReport) {expected : Bytes} :
    let _ := Interp.ascii
    let _ := Crypto.prefixDigest
    snpReportData call.publicKey call.nonce call.role = .ok expected → expected.length = 64 →
    ∃ after, plainDriver.host.Run (TsmFs.empty, sideBySide (sevSnpAttest lib anyHost call) other)
      (after, sideBySide (.ret (sevSnpEvidence lib call expected expected)) other) ∧ expected ∈ after.signed := by
  intro _ _ hbinding hlength
  have hhost : sevSnpRequireHost anyHost = .ok () := (TsmPlatform.requireHost_iff .sevSnp anyHost).1.mpr (by decide)
  have hattest : sevSnpAttest lib anyHost call =
      (collectReport expected providerSevGuest call.pid call.token).andThen fun collected =>
        .ret (collected.bind fun blobs => sevSnpEvidence lib call expected blobs.1) := by
    rw [sevSnpAttest, hhost, hbinding]
    rfl
  rw [hattest]
  exact run_collected hlength.le rfl (by decide) rfl (List.ne_nil_of_length_pos (by omega))

theorem snpReportData_plain :
    let _ := Interp.ascii
    let _ := Crypto.prefixDigest
    ∃ expected, snpReportData (lit "k") (lit "n") roleCallee = .ok expected ∧ expected.length = 64 := by
  intro _ _
  have hfield : (snpReportData (lit "k") (lit "n") roleCallee).toOption.map List.length = some 64 := by decide +kernel
  cases hbinding : snpReportData (lit "k") (lit "n") roleCallee with
  | error e =>
    rw [hbinding] at hfield
    cases hfield
  | ok expected =>
    rw [hbinding] at hfield
    exact ⟨expected, rfl, Option.some.inj hfield⟩

/-- A call for a key, and a host that is not Linux. -/
def snpCall : AttestCall := ⟨lit "k", lit "n", roleCallee, 7, [9]⟩

def otherHost : TsmEnv := { anyHost with platform := lit "darwin" }

theorem attests_sideBySide [Interp] [Crypto] (lib : SnpLib) (pki : TdxPki) (pem : pki.Cert → Bytes) :
    (fun b => TsmPlatform.attest lib pki pem (bif b then anyHost else otherHost) .sevSnp snpCall) =
      sideBySide (sevSnpAttest lib anyHost snpCall) (sevSnpAttest lib otherHost snpCall) := by
  funext b
  cases b <;> rfl

/-- Two calls of `attest`, one for a key and one on a host that is not Linux. -/
theorem tsm_attest_twoCalls :
    let _ := Interp.ascii
    let _ := Crypto.prefixDigest
    ∃ after progs report expected, plainDriver.host.Run
        (TsmFs.empty, fun b => TsmPlatform.attest plainSnp custodyPki id (bif b then anyHost else otherHost) .sevSnp snpCall)
        (after, progs) ∧
      progs true = .ret (.ok report) ∧ Attests plainSnp custodyPki plainDriver .sevSnp snpCall report ∧
      snpReportData (lit "k") (lit "n") roleCallee = .ok expected ∧ report.rawEvidence = some expected ∧
      ∃ m d, progs false = .ret (.error (.unsupported m d)) := by
  intro _ _
  obtain ⟨expected, hbinding, hlength⟩ := snpReportData_plain
  obtain ⟨after, hrun, _⟩ := exists_run_sevSnpAttest plainSnp snpCall (sevSnpAttest plainSnp otherHost snpCall) hbinding hlength
  rw [← attests_sideBySide plainSnp custodyPki id] at hrun
  obtain ⟨report, hreport⟩ : ∃ report, sevSnpEvidence plainSnp snpCall expected expected = .ok report :=
    ⟨_, by rw [sevSnpEvidence, SevSnpReport.ofBytes]; exact if_neg (not_not.mpr rfl)⟩
  obtain ⟨r, hr, _, _, _, _, _, hraw, _⟩ := sevSnpEvidence_ok hreport
  obtain ⟨hattests, _, _, hhosts⟩ := tsm_attest plainDriver plainSnp custodyPki id rfl (by simp [TsmFs.empty]) hrun
  refine ⟨_, _, report, expected, hrun, hreport ▸ rfl, hattests true report (hreport ▸ rfl), hbinding, ?_,
    (hhosts false).2 (by decide)⟩
  cases hr
  exact hraw

end Ca2a
