/-
The field each platform signs over: `tpm_qualifying_data`, `snp_report_data`
and `tdx_report_data`.

What is hashed begins with a domain and goes on with two fields after their
lengths, so the platform, the role, the key and the nonce are read back from
it in that order. The digest adds nothing to this, and the padding only
zeros: a TPM commits the 32 octets of the digest, the other two 64.
-/
import Ca2a.Binding

namespace Ca2a

open Py

/-- The platforms that sign over a field of the caller's choice. -/
inductive Platform
  | tpm
  | snp
  | tdx
  deriving DecidableEq, Repr

/-- `TPM_PREFIX`, `SNP_PREFIX`, `TDX_PREFIX` -/
def Platform.platformPrefix : Platform → Bytes
  | .tpm => tpmPrefix
  | .snp => snpPrefix
  | .tdx => tdxPrefix

/-- `REPORT_DATA_LEN` of `ca2a_runtime.tee.tsm` -/
def reportDataLen : Nat := 64

/-- `pad_report_data` -/
def padReportData (digest : Bytes) (length : Nat) : Result Bytes :=
  if length < digest.length then
    .error (.builtin .valueError (lit "binding digest is " ++ decimal digest.length ++ lit " bytes, exceeds the " ++
      decimal length ++ lit "-byte field"))
  else .ok (digest ++ List.replicate (length - digest.length) 0)

section
variable [Interp]

/-- What `derive_binding` hashes. -/
def bindingOctets (domain : Bytes) (publicKey nonce : Str) : Result Bytes := do
  let key ← utf8 publicKey
  let nonce ← utf8 nonce
  let keyPart ← lengthPrefixed key
  let noncePart ← lengthPrefixed nonce
  .ok (domain ++ (keyPart ++ noncePart))

/-- What `derive_binding` hashes under `role_prefix`. -/
def hashedOctets (platform : Platform) (role publicKey nonce : Str) : Result Bytes := do
  let domain ← rolePrefix platform.platformPrefix role
  bindingOctets domain publicKey nonce

variable [Crypto]

/-- `tpm_qualifying_data` -/
def tpmQualifyingData (publicKey nonce role : Str) : Result Bytes := do
  let domain ← rolePrefix tpmPrefix role
  deriveBinding domain publicKey nonce

/-- `snp_report_data` -/
def snpReportData (publicKey nonce role : Str) : Result Bytes := do
  let domain ← rolePrefix snpPrefix role
  let digest ← deriveBinding domain publicKey nonce
  padReportData digest reportDataLen

/-- `tdx_report_data` -/
def tdxReportData (publicKey nonce role : Str) : Result Bytes := do
  let domain ← rolePrefix tdxPrefix role
  let digest ← deriveBinding domain publicKey nonce
  padReportData digest reportDataLen

/-- The field a platform signs over. -/
def Platform.reportData : Platform → (publicKey nonce role : Str) → Result Bytes
  | .tpm => tpmQualifyingData
  | .snp => snpReportData
  | .tdx => tdxReportData

/-- The width of the digest in the field. -/
def Platform.pad : Platform → Bytes → Bytes
  | .tpm => id
  | .snp | .tdx => fun digest => digest ++ List.replicate (reportDataLen - digest.length) 0

/-! ## What is hashed -/

theorem deriveBinding_eq (domain : Bytes) (publicKey nonce : Str) :
    deriveBinding domain publicKey nonce = (bindingOctets domain publicKey nonce).map Crypto.sha256 := by
  unfold deriveBinding bindingOctets
  cases utf8 (ε := CA2AError) publicKey with
  | error e => rfl
  | ok key =>
    cases utf8 (ε := CA2AError) nonce with
    | error e => rfl
    | ok n =>
      simp only [ok_bind]
      cases lengthPrefixed key with
      | error e => rfl
      | ok keyPart =>
        cases lengthPrefixed n with
        | error e => rfl
        | ok noncePart => rfl

omit [Crypto] in
/-- **What is hashed names the key and the nonce.** -/
theorem bindingOctets_append_inj {publicKey publicKey' nonce nonce' : Str} {octets octets' : Bytes} {domain : Bytes}
    (h : bindingOctets domain publicKey nonce = .ok octets) (h' : bindingOctets domain publicKey' nonce' = .ok octets')
    (heq : octets = octets') : publicKey = publicKey' ∧ nonce = nonce' := by
  simp only [bindingOctets, bind_ok_iff, Except.ok.injEq] at h h'
  obtain ⟨key, hkey, n, hn, keyPart, hkeyPart, noncePart, hnoncePart, rfl⟩ := h
  obtain ⟨key', hkey', n', hn', keyPart', hkeyPart', noncePart', hnoncePart', rfl⟩ := h'
  have hfields := List.append_cancel_left heq
  obtain ⟨rfl, hnonces⟩ := lengthPrefixed_append_inj hkeyPart hkeyPart' hfields
  have hlast : noncePart ++ [] = noncePart' ++ [] := by rw [hnonces]
  obtain ⟨rfl, _⟩ := lengthPrefixed_append_inj hnoncePart hnoncePart' hlast
  rw [utf8_ok_iff] at hkey hkey' hn hn'
  exact ⟨utf8?_injective hkey hkey', utf8?_injective hn hn'⟩

omit [Interp] [Crypto] in
theorem platformPrefix_injective : Function.Injective Platform.platformPrefix := by
  intro p q
  cases p <;> cases q <;> decide

omit [Crypto] in
/-- **What is hashed names the platform, the role, the key and the nonce.** -/
theorem hashedOctets_inj {platform platform' : Platform} {role role' publicKey publicKey' nonce nonce' : Str}
    {octets : Bytes} (h : hashedOctets platform role publicKey nonce = .ok octets)
    (h' : hashedOctets platform' role' publicKey' nonce' = .ok octets) :
    platform = platform' ∧ role = role' ∧ publicKey = publicKey' ∧ nonce = nonce' := by
  rw [hashedOctets, bind_ok_iff] at h h'
  obtain ⟨domain, hdomain, h⟩ := h
  obtain ⟨domain', hdomain', h'⟩ := h'
  have hbegins : ∃ rest, octets = domain ++ rest := by
    simp only [bindingOctets, bind_ok_iff, Except.ok.injEq] at h
    obtain ⟨_, _, _, _, keyPart, _, noncePart, _, rfl⟩ := h
    exact ⟨keyPart ++ noncePart, rfl⟩
  have hbegins' : ∃ rest, octets = domain' ++ rest := by
    simp only [bindingOctets, bind_ok_iff, Except.ok.injEq] at h'
    obtain ⟨_, _, _, _, keyPart, _, noncePart, _, rfl⟩ := h'
    exact ⟨keyPart ++ noncePart, rfl⟩
  obtain ⟨rest, hrest⟩ := hbegins
  obtain ⟨rest', hrest'⟩ := hbegins'
  obtain ⟨hplatform, hrole, rfl, _⟩ := rolePrefix_append_inj hdomain hdomain' (hrest.symm.trans hrest')
  obtain ⟨hkey, hnonce⟩ := bindingOctets_append_inj h h' rfl
  exact ⟨platformPrefix_injective hplatform, hrole, hkey, hnonce⟩

omit [Interp] [Crypto] in
theorem lengthPrefixed_defined {field : Bytes} (h : field.length < 2 ^ 32) : ∃ part, lengthPrefixed field = .ok part := by
  unfold lengthPrefixed toBytes4
  rw [if_pos h]
  exact ⟨_, rfl⟩

omit [Crypto] in
theorem rolePrefix_defined (platform : Platform) {role : Str} (h : role = roleCallee ∨ role = roleCaller) :
    ∃ domain, rolePrefix platform.platformPrefix role = .ok domain := by
  rcases h with rfl | rfl <;> cases platform <;> exact ⟨_, rfl⟩

omit [Crypto] in
/-- Fields of fewer than `2 ^ 32` octets have a binding in either role. -/
theorem hashedOctets_defined (platform : Platform) {role publicKey nonce : Str} {key n : Bytes}
    (hrole : role = roleCallee ∨ role = roleCaller) (hkey : utf8? publicKey = some key) (hnonce : utf8? nonce = some n)
    (hkeyLength : key.length < 2 ^ 32) (hnonceLength : n.length < 2 ^ 32) :
    ∃ octets, hashedOctets platform role publicKey nonce = .ok octets := by
  obtain ⟨domain, hdomain⟩ := rolePrefix_defined platform hrole
  obtain ⟨keyPart, hkeyPart⟩ := lengthPrefixed_defined hkeyLength
  obtain ⟨noncePart, hnoncePart⟩ := lengthPrefixed_defined hnonceLength
  refine ⟨domain ++ (keyPart ++ noncePart), ?_⟩
  simp only [hashedOctets, bindingOctets, bind_ok_iff, utf8_ok_iff]
  exact ⟨domain, hdomain, key, hkey, n, hnonce, keyPart, hkeyPart, noncePart, hnoncePart, rfl⟩

/-! ## What is signed over -/

omit [Interp] [Crypto] in
theorem padReportData_digest {digest : Bytes} (hlength : digest.length = 32) :
    padReportData digest reportDataLen = .ok (Platform.snp.pad digest) := by
  rw [padReportData, if_neg]
  · rfl
  · rw [hlength, reportDataLen]
    decide

/-- The field is the digest of what is hashed, in the platform's width. -/
theorem reportData_eq {platform : Platform} {publicKey nonce role : Str}
    (hlength : ∀ octets, hashedOctets platform role publicKey nonce = .ok octets → (Crypto.sha256 octets).length = 32) :
    platform.reportData publicKey nonce role =
      (hashedOctets platform role publicKey nonce).map fun octets => platform.pad (Crypto.sha256 octets) := by
  have hpadded : ∀ domain, rolePrefix platform.platformPrefix role = .ok domain →
      (do let digest ← deriveBinding domain publicKey nonce; padReportData digest reportDataLen) =
        (bindingOctets domain publicKey nonce).map fun octets => Platform.snp.pad (Crypto.sha256 octets) := by
    intro domain hdomain
    rw [hashedOctets, hdomain, ok_bind] at hlength
    rw [deriveBinding_eq]
    cases hoctets : bindingOctets domain publicKey nonce with
    | error e => rfl
    | ok octets => exact padReportData_digest (hlength octets hoctets)
  unfold hashedOctets
  cases hdomain : rolePrefix platform.platformPrefix role with
  | error e =>
    cases platform with
    | tpm => exact congrArg (· >>= _) hdomain
    | snp => exact congrArg (· >>= _) hdomain
    | tdx => exact congrArg (· >>= _) hdomain
  | ok domain =>
    cases platform with
    | tpm => exact (congrArg (· >>= _) hdomain).trans (deriveBinding_eq domain publicKey nonce)
    | snp => exact (congrArg (· >>= _) hdomain).trans (hpadded domain hdomain)
    | tdx => exact (congrArg (· >>= _) hdomain).trans (hpadded domain hdomain)

omit [Interp] [Crypto] in
/-- The digest is read back from the field. -/
theorem pad_inj {platform platform' : Platform} {digest digest' : Bytes} (hlength : digest.length = 32)
    (hlength' : digest'.length = 32) (h : platform.pad digest = platform'.pad digest') : digest = digest' := by
  have htake : ∀ (p : Platform) (d : Bytes), d.length = 32 → (p.pad d).take 32 = d := by
    intro p d hd
    cases p with
    | tpm => exact List.take_of_length_le hd.le
    | snp => exact List.take_left' hd
    | tdx => exact List.take_left' hd
  rw [← htake platform digest hlength, h, htake platform' digest' hlength']

/-- One field is signed over for one platform, role, key and nonce only, where the digest has no
collision among what is hashed. -/
theorem reportData_inj {platform platform' : Platform} {role role' publicKey publicKey' nonce nonce' : Str}
    {hashed : Set Bytes} (hinj : hashed.InjOn Crypto.sha256)
    (hlength : ∀ octets ∈ hashed, (Crypto.sha256 octets).length = 32)
    (hmem : ∀ octets, hashedOctets platform role publicKey nonce = .ok octets → octets ∈ hashed)
    (hmem' : ∀ octets, hashedOctets platform' role' publicKey' nonce' = .ok octets → octets ∈ hashed) {field : Bytes}
    (h : platform.reportData publicKey nonce role = .ok field)
    (h' : platform'.reportData publicKey' nonce' role' = .ok field) :
    platform = platform' ∧ role = role' ∧ publicKey = publicKey' ∧ nonce = nonce' := by
  rw [reportData_eq fun octets hoctets => hlength octets (hmem octets hoctets)] at h
  rw [reportData_eq fun octets hoctets => hlength octets (hmem' octets hoctets)] at h'
  obtain ⟨octets, hoctets, hfield⟩ := map_ok_iff.mp h
  obtain ⟨octets', hoctets', hfield'⟩ := map_ok_iff.mp h'
  have hin := hmem octets hoctets
  have hin' := hmem' octets' hoctets'
  have hdigest := pad_inj (hlength octets hin) (hlength octets' hin') (hfield.trans hfield'.symm)
  have hsame := hinj hin hin' hdigest
  subst hsame
  exact hashedOctets_inj hoctets hoctets'

/-- **No field for an unknown role.** -/
theorem reportData_unknown_role (platform : Platform) {role : Str} (publicKey nonce : Str) (hcallee : role ≠ roleCallee)
    (hcaller : role ≠ roleCaller) :
    ∃ message detail, platform.reportData publicKey nonce role = raise .attestationFailed message detail := by
  have hroles : ∀ entry ∈ rolePrefixes, entry.1.2 = roleCallee ∨ entry.1.2 = roleCaller := by decide
  have hunknown : ∃ message detail, rolePrefix platform.platformPrefix role = raise .attestationFailed message detail := by
    cases h : rolePrefix platform.platformPrefix role with
    | ok domain =>
      rcases hroles _ (mem_of_rolePrefix h) with hrole | hrole
      · exact absurd hrole hcallee
      · exact absurd hrole hcaller
    | error e =>
      unfold rolePrefix at h
      split at h
      · cases h
      · exact ⟨_, _, h.symm⟩
  obtain ⟨message, detail, h⟩ := hunknown
  refine ⟨message, detail, ?_⟩
  cases platform with
  | tpm => exact congrArg (· >>= _) h
  | snp => exact congrArg (· >>= _) h
  | tdx => exact congrArg (· >>= _) h

/-- **Reported fields are unambiguous.** What is hashed is equal for equal platforms, roles, keys and
nonces only; a digest without a collision among what was hashed keeps this in the field of 32 or 64
octets that is signed over; the field is there for each tuple of fields shorter than `2 ^ 32`; and no
platform commits to anything in an unknown role. -/
theorem reportData_unambiguous (platform platform' : Platform) (role role' publicKey publicKey' nonce nonce' : Str) :
    (∀ octets, hashedOctets platform role publicKey nonce = .ok octets →
      hashedOctets platform' role' publicKey' nonce' = .ok octets →
        platform = platform' ∧ role = role' ∧ publicKey = publicKey' ∧ nonce = nonce') ∧
    (∀ hashed : Set Bytes, hashed.InjOn Crypto.sha256 → (∀ octets ∈ hashed, (Crypto.sha256 octets).length = 32) →
      (∀ octets, hashedOctets platform role publicKey nonce = .ok octets → octets ∈ hashed) →
      (∀ octets, hashedOctets platform' role' publicKey' nonce' = .ok octets → octets ∈ hashed) →
      ∀ field, platform.reportData publicKey nonce role = .ok field →
        platform'.reportData publicKey' nonce' role' = .ok field →
          platform = platform' ∧ role = role' ∧ publicKey = publicKey' ∧ nonce = nonce') ∧
    (∀ key n, (role = roleCallee ∨ role = roleCaller) → utf8? publicKey = some key → utf8? nonce = some n →
      key.length < 2 ^ 32 → n.length < 2 ^ 32 →
        ∃ octets, hashedOctets platform role publicKey nonce = .ok octets ∧
          ((Crypto.sha256 octets).length = 32 →
            platform.reportData publicKey nonce role = .ok (platform.pad (Crypto.sha256 octets)))) ∧
    (role ≠ roleCallee → role ≠ roleCaller → ∃ message detail,
      platform.reportData publicKey nonce role = raise .attestationFailed message detail) := by
  refine ⟨?_, ?_, ?_, ?_⟩
  · intro octets h h'
    exact hashedOctets_inj h h'
  · intro hashed hinj hlength hmem hmem' field h h'
    exact reportData_inj hinj hlength hmem hmem' h h'
  · intro key n hrole hkey hnonce hkeyLength hnonceLength
    obtain ⟨octets, hoctets⟩ := hashedOctets_defined platform hrole hkey hnonce hkeyLength hnonceLength
    refine ⟨octets, hoctets, ?_⟩
    intro hlength
    rw [reportData_eq, hoctets]
    · rfl
    · intro octets' hoctets'
      cases hoctets.symm.trans hoctets'
      exact hlength
  · intro hcallee hcaller
    exact reportData_unknown_role platform publicKey nonce hcallee hcaller

end

/-- The first 32 octets, for a digest. -/
@[reducible] def Crypto.prefixDigest : Crypto :=
  { Crypto.toy with sha256 := fun b => (b ++ List.replicate 32 0).take 32 }

/-- The same key and nonce on two platforms, and in a role there is not. -/
theorem reportData_unambiguous_platforms :
    (¬ ∃ field, @Platform.reportData Interp.ascii Crypto.prefixDigest .snp (lit "a") (lit "b") roleCallee = .ok field ∧
      @Platform.reportData Interp.ascii Crypto.prefixDigest .tdx (lit "a") (lit "b") roleCallee = .ok field) ∧
    (∃ octets, @hashedOctets Interp.ascii .snp roleCallee (lit "a") (lit "b") = .ok octets) ∧
    ∃ message detail, @Platform.reportData Interp.ascii Crypto.prefixDigest .snp (lit "a") (lit "b") (lit "peer") =
      raise .attestationFailed message detail := by
  have htuples := @reportData_unambiguous Interp.ascii Crypto.prefixDigest .snp .tdx roleCallee roleCallee (lit "a")
    (lit "a") (lit "b") (lit "b")
  have hpeer := @reportData_unambiguous Interp.ascii Crypto.prefixDigest .snp .tdx (lit "peer") roleCallee (lit "a")
    (lit "a") (lit "b") (lit "b")
  refine ⟨?_, ?_, hpeer.2.2.2 (by decide) (by decide)⟩
  · intro h
    obtain ⟨field, hsnp, htdx⟩ := h
    have hsnpOctets : @hashedOctets Interp.ascii .snp roleCallee (lit "a") (lit "b") =
        .ok (snpPrefix ++ [0, 0, 0, 1, 97, 0, 0, 0, 1, 98]) := rfl
    have htdxOctets : @hashedOctets Interp.ascii .tdx roleCallee (lit "a") (lit "b") =
        .ok (tdxPrefix ++ [0, 0, 0, 1, 97, 0, 0, 0, 1, 98]) := rfl
    have htuple := htuples.2.1
      {snpPrefix ++ [0, 0, 0, 1, 97, 0, 0, 0, 1, 98], tdxPrefix ++ [0, 0, 0, 1, 97, 0, 0, 0, 1, 98]}
      (by simp only [Set.InjOn, Set.mem_insert_iff, Set.mem_singleton_iff, forall_eq_or_imp, forall_eq]; decide)
      (by simp only [Set.mem_insert_iff, Set.mem_singleton_iff, forall_eq_or_imp, forall_eq]; decide)
      (by intro octets ho; cases hsnpOctets.symm.trans ho; exact Set.mem_insert _ _)
      (by intro octets ho; cases htdxOctets.symm.trans ho; exact Set.mem_insert_of_mem _ rfl) field hsnp htdx
    exact absurd htuple.1 (by decide)
  · obtain ⟨octets, hoctets, _⟩ := htuples.2.2.1 [97] [98] (.inl rfl) rfl rfl (by decide) (by decide)
    exact ⟨octets, hoctets⟩

end Ca2a
