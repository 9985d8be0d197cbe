/-
What leaves the verifiers of `ca2a_verify` and the appraisal that calls them.

The appraisal of a caller turns `AttestationFailed` into a refusal and catches
nothing else. The verifiers translate what the libraries raise, in all places but
two. Before anything is verified they derive the binding, which encodes the key
and the nonce of the report; and the SEV-SNP one reads the key of the leaf of the
chain it was configured with. What cannot be encoded or read raises there what
nobody catches, and there is no other way (`hardwareVerifier_plain_iff`).
-/
import Ca2a.HardwareVerifier
import Ca2a.NodeErrors
import Ca2a.Refusals

namespace Ca2a

open Py

/-- `AttestationFailed`, without a record. -/
def Exc.isPlain (e : Exc) : Prop := e.isClass .attestationFailed ∧ e.record? = none

/-- The text has an encoding of fewer than `2 ^ 32` octets. -/
def FieldFits [Interp] (s : Str) : Prop := ∃ b, utf8? s = some b ∧ b.length < 2 ^ 32

/-- The libraries raise what they say they raise, nothing of this program's. -/
structure SnpTools.Documented (tools : SnpTools) : Prop where
  publicKey : ∀ cert, Spec (tools.publicKey cert) (fun _ => True) fun e => ∃ k t, e = .builtin k t
  verify384 : ∀ key r s message, Spec (tools.verify384 key r s message) (fun _ => True)
    fun e => ∃ t, e = .builtin .invalidSignature t
  parsePlatformInfo : ∀ n, ∃ info, tools.parsePlatformInfo n = .ok info

section
variable {sdk : TpmSdk} {tools : SnpTools}

theorem plain_raise {α : Type} {post : α → Prop} (m : Str) (d : Option Str) :
    Spec (raise .attestationFailed m d : Result α) post Exc.isPlain := ⟨rfl, rfl⟩

theorem plain_ite {α : Type} {c : Prop} [Decidable c] {x y : Result α} (hx : Spec x (fun _ => True) Exc.isPlain)
    (hy : Spec y (fun _ => True) Exc.isPlain) : Spec (if c then x else y) (fun _ => True) Exc.isPlain := by
  split
  · exact hx
  · exact hy

theorem readSlice_plain (buf : Bytes) (i j : Nat) : Spec (readSlice buf i j).result (fun _ => True) Exc.isPlain := trivial

theorem readU16_plain (buf : Bytes) (pos : Nat) : Spec (readU16 buf pos).result (fun _ => True) Exc.isPlain := by
  unfold readU16
  split
  · exact plain_raise _ _
  · exact trivial

theorem read2b_plain (buf : Bytes) (pos : Nat) : Spec (read2b buf pos).result (fun _ => True) Exc.isPlain := by
  rw [read2b, Traced.bind_result]
  refine (readU16_plain buf pos).bind fun size _ => ?_
  dsimp only
  split
  · exact plain_raise _ _
  · exact trivial

theorem skipSelections_plain (blob : Bytes) (count pos : Nat) :
    Spec (skipSelections blob count pos).result (fun _ => True) Exc.isPlain := by
  induction count generalizing pos with
  | zero => exact trivial
  | succ count ih =>
    rw [skipSelections]
    split
    · exact plain_raise _ _
    rename_i hpos
    rw [Traced.bind_result]
    have hbyte : ∃ x, (readByte blob (pos + 2)).result = .ok x := by
      have hlt : pos + 2 < blob.length := by omega
      rw [readByte, List.getElem?_eq_getElem hlt]
      exact ⟨_, rfl⟩
    obtain ⟨x, hx⟩ := hbyte
    rw [hx, ok_bind]
    exact ih _

theorem parse_plain (blob : Bytes) : Spec (TpmQuote.parse blob).result (fun _ => True) Exc.isPlain := by
  unfold TpmQuote.parse
  split
  · exact plain_raise _ _
  rw [Traced.bind_result]
  refine (readSlice_plain _ _ _).bind fun magic _ => ?_
  rw [Traced.bind_result]
  refine (readU16_plain _ _).bind fun type _ => ?_
  dsimp only
  rw [Traced.bind_result]
  refine (read2b_plain _ _).bind fun signer _ => ?_
  rw [Traced.bind_result]
  refine (read2b_plain _ _).bind fun data _ => ?_
  split
  · exact plain_raise _ _
  rw [Traced.bind_result]
  refine (readSlice_plain _ _ _).bind fun count _ => ?_
  rw [Traced.bind_result]
  refine (skipSelections_plain _ _ _).bind fun pos _ => ?_
  rw [Traced.bind_result]
  exact (read2b_plain _ _).bind fun digest _ => trivial

/-! ## Errors of the bindings -/

section
variable [Interp]

theorem utf8_plain_iff {s : Str} : Spec (utf8 s) (fun _ => True) Exc.isPlain ↔ ∃ b, utf8? s = some b := by
  unfold utf8
  split
  · rename_i b hb
    exact iff_of_true trivial ⟨b, hb⟩
  · rename_i hnone
    exact iff_of_false (fun h => h.1) fun h => by simp [hnone] at h

omit [Interp] in
theorem lengthPrefixed_plain_iff {b : Bytes} : Spec (lengthPrefixed b) (fun _ => True) Exc.isPlain ↔ b.length < 2 ^ 32 := by
  unfold lengthPrefixed toBytes4
  split
  · rename_i h
    exact iff_of_true trivial h
  · rename_i h
    exact iff_of_false (fun hs => hs.1) h

theorem bindingOctets_plain_iff {domain : Bytes} {publicKey nonce : Str} :
    Spec (bindingOctets domain publicKey nonce) (fun _ => True) Exc.isPlain ↔ FieldFits publicKey ∧ FieldFits nonce := by
  rw [bindingOctets]
  simp only [spec_bind_iff, utf8_plain_iff, utf8_ok_iff, lengthPrefixed_plain_iff, spec_ok, implies_true, and_true]
  refine ⟨fun h => ?_, fun h => ?_⟩
  · obtain ⟨⟨key, hkey⟩, h⟩ := h
    obtain ⟨⟨n, hn⟩, h⟩ := h key hkey
    obtain ⟨hlength, h⟩ := h n hn
    obtain ⟨part, hpart⟩ := lengthPrefixed_defined hlength
    exact ⟨⟨key, hkey, hlength⟩, n, hn, h part hpart⟩
  · obtain ⟨⟨key, hkey, hlength⟩, n, hn, hlength'⟩ := h
    refine ⟨⟨key, hkey⟩, fun key' hkey' => ⟨⟨n, hn⟩, fun n' hn' => ?_⟩⟩
    obtain rfl := Option.some.inj (hkey.symm.trans hkey')
    obtain rfl := Option.some.inj (hn.symm.trans hn')
    exact ⟨hlength, fun _ _ => hlength'⟩

/-- A binding raises `AttestationFailed` for an unknown role; in a role there is, its fields have to have an encoding. -/
theorem reportData_plain_iff [Crypto] (hdigest : ∀ octets, (Crypto.sha256 octets).length = 32) {platform : Platform}
    {publicKey nonce role : Str} :
    Spec (platform.reportData publicKey nonce role) (fun _ => True) Exc.isPlain ↔
      (role = roleCallee ∨ role = roleCaller → FieldFits publicKey ∧ FieldFits nonce) := by
  by_cases hrole : role = roleCallee ∨ role = roleCaller
  · obtain ⟨domain, hdomain⟩ := rolePrefix_defined platform hrole
    rw [reportData_eq fun octets _ => hdigest octets, hashedOctets, hdomain, ok_bind, forall_prop_of_true hrole,
      ← bindingOctets_plain_iff]
    cases bindingOctets domain publicKey nonce <;> exact Iff.rfl
  · obtain ⟨hcallee, hcaller⟩ := not_or.mp hrole
    obtain ⟨message, detail, h⟩ := reportData_unknown_role platform publicKey nonce hcallee hcaller
    rw [h]
    exact iff_of_true (plain_raise _ _) fun h => absurd h hrole

/-- In a role there is, fields that have an encoding have a binding. -/
theorem reportData_defined [Crypto] (hdigest : ∀ octets, (Crypto.sha256 octets).length = 32) (platform : Platform)
    {publicKey nonce role : Str} (hrole : role = roleCallee ∨ role = roleCaller) (hkey : FieldFits publicKey)
    (hnonce : FieldFits nonce) : ∃ data, platform.reportData publicKey nonce role = .ok data := by
  obtain ⟨key, hkey, hlength⟩ := hkey
  obtain ⟨n, hn, hlength'⟩ := hnonce
  obtain ⟨octets, hoctets⟩ := hashedOctets_defined platform hrole hkey hn hlength hlength'
  rw [reportData_eq fun octets _ => hdigest octets, hoctets]
  exact ⟨_, rfl⟩

end

/-! ## Errors of the verifiers -/

theorem delegate_plain (attest akChainPem trustedRootsPem : Bytes) (signature : QuoteSignature)
    (qualifyingData pcrDigest : Option Bytes) :
    Spec (delegate sdk attest signature akChainPem trustedRootsPem qualifyingData pcrDigest) (fun _ => True) Exc.isPlain := by
  unfold delegate
  split
  · exact plain_raise _ _
  · exact trivial
  · exact plain_raise _ _

theorem checkPlatform_plain (htools : tools.Documented) (r : SevSnpReport) (require forbid : Option (Finset Str))
    (reject : Bool) : Spec (checkPlatform tools r require forbid reject) (fun _ => True) Exc.isPlain := by
  unfold checkPlatform
  split
  · obtain ⟨info, hinfo⟩ := htools.parsePlatformInfo (r.platformInfo tools)
    rw [hinfo, ok_bind]
    split
    · exact trivial
    · exact plain_raise _ _
  · exact trivial

/-- The key of the leaf is read outside of every handler. -/
theorem leafKey_plain_iff (htools : tools.Documented) (chain : List tools.Cert) :
    Spec (leafOf tools.toTdxPki chain >>= tools.publicKey) (fun _ => True) Exc.isPlain ↔ tools.LeafKeyLoads chain := by
  cases chain with
  | nil =>
    refine iff_of_false (fun h => h.1) fun h => ?_
    obtain ⟨_, _, _, hchain, _⟩ := h
    cases hchain
  | cons vcek rest =>
    rw [leafOf, ok_bind]
    cases hkey : tools.publicKey vcek with
    | ok key => exact iff_of_true trivial ⟨vcek, rest, key, rfl, hkey⟩
    | error e =>
      obtain ⟨k, t, rfl⟩ := (htools.publicKey vcek).of_error hkey
      refine iff_of_false (fun h => h.1) fun h => ?_
      obtain ⟨_, _, _, hchain, hloads⟩ := h
      cases hchain
      rw [hkey] at hloads
      cases hloads

theorem verifySevSnpReport_plain_iff (htools : tools.Documented) (evidence : Bytes) (chain roots : List tools.Cert)
    (measurement reportData : Option Bytes) (require forbid : Option (Finset Str)) (reject : Bool) :
    Spec (verifySevSnpReport tools evidence chain roots measurement reportData require forbid reject) (fun _ => True)
      Exc.isPlain ↔
      ∀ r, SevSnpReport.ofBytes tools.toSnpLib evidence = .ok r → r.signatureAlgo = sigAlgoEcdsaP384Sha384 →
        tools.verifyChain chain roots = .ok () → tools.LeafKeyLoads chain := by
  have hparse : Spec (SevSnpReport.ofBytes tools.toSnpLib evidence) (fun _ => True) Exc.isPlain := by
    unfold SevSnpReport.ofBytes
    split
    · exact trivial
    · exact plain_raise _ _
  rw [verifySevSnpReport, spec_bind_iff, and_iff_right hparse]
  refine forall_congr' fun r => forall_congr' fun _ => ?_
  by_cases halgo : r.signatureAlgo = sigAlgoEcdsaP384Sha384
  swap
  · rw [if_pos halgo]
    exact iff_of_true (plain_raise _ _) fun h => absurd h halgo
  rw [if_neg (not_not.mpr halgo), forall_prop_of_true halgo]
  cases hchain : verifyCertChain tools.toTdxPki chain roots with
  | error e =>
    unfold verifyCertChain at hchain
    split at hchain
    · cases hchain
    · rename_i hrejected
      cases hchain
      refine iff_of_true ?_ fun h => ?_
      · exact plain_raise _ _
      rw [hrejected] at h
      cases h
  | ok u =>
    rw [ok_bind, forall_prop_of_true (verifyCertChain_ok_iff.mp hchain), ← leafKey_plain_iff htools, ← bind_assoc,
      spec_bind_iff]
    refine and_iff_left fun key _ => ?_
    cases key with
    | none => exact plain_raise _ _
    | some key =>
      have hsigned : Spec (catchBuiltin (· = .invalidSignature)
          (tools.verify384 key (r.signatureRs tools).1 (r.signatureRs tools).2 (r.signedBody tools)) fun _ =>
            raise .attestationFailed (lit "SEV-SNP report signature failed to verify")) (fun _ => True) Exc.isPlain := by
        refine catchBuiltin_spec ((htools.verify384 _ _ _ _).mono (fun _ h => h) fun e he => .inr ?_) fun _ => plain_raise _ _
        obtain ⟨t, rfl⟩ := he
        exact ⟨_, t, rfl, rfl⟩
      refine hsigned.bind fun _ _ => plain_ite (plain_raise _ _) (plain_ite (plain_raise _ _) ?_)
      exact (checkPlatform_plain htools r require forbid reject).bind fun _ _ => trivial

namespace HardwareVerifier
variable [Interp] [Crypto]

omit [Interp] [Crypto] in
/-- The report carries under the nonce what the verifier reads before it derives the binding. -/
def Presents (report : AttestationReport) (nonce : Str) : HardwareVerifier sdk tools → Prop
  | tpm trustedRootsPem => report.nonce = nonce ∧ trustedRootsPem ≠ [] ∧ (∃ evidence, report.rawEvidence = some evidence) ∧
      (∃ signature, report.quoteSignature = some signature) ∧ ∃ pem, report.attestationKeyChainPem = some pem ∧ pem ≠ []
  | sevSnp _ _ _ => report.nonce = nonce ∧ report.platform = lit "sev-snp" ∧ ∃ evidence, report.rawEvidence = some evidence

omit [Interp] [Crypto] in
/-- Where the verifier gets as far as the leaf of the chain it was configured with, the key of that leaf can be read. -/
def LeafReadable (report : AttestationReport) : HardwareVerifier sdk tools → Prop
  | tpm _ => True
  | sevSnp req _ _ => ∀ evidence r, report.rawEvidence = some evidence →
      SevSnpReport.ofBytes tools.toSnpLib evidence = .ok r → r.signatureAlgo = sigAlgoEcdsaP384Sha384 →
      tools.verifyChain req.vcekChain req.trustedRoots = .ok () → tools.LeafKeyLoads req.vcekChain

theorem appraiseTpmEvidence_plain_iff (hdigest : ∀ octets, (Crypto.sha256 octets).length = 32) {report : AttestationReport}
    {evidence signature chain roots : Bytes} :
    Spec (appraiseTpmEvidence sdk report evidence signature chain roots) (fun _ => True) Exc.isPlain ↔
      (report.role = roleCallee ∨ report.role = roleCaller → FieldFits report.publicKey ∧ FieldFits report.nonce) := by
  have hbinding : Spec (tpmQualifyingData report.publicKey report.nonce report.role) (fun _ => True) Exc.isPlain ↔ _ :=
    @reportData_plain_iff _ _ hdigest .tpm _ _ _
  rw [appraiseTpmEvidence, spec_bind_iff, hbinding]
  refine and_iff_left fun binding _ => ?_
  have hparsed : Spec (parseTpmtSignature sdk signature) (fun _ => True) Exc.isPlain := by
    unfold parseTpmtSignature
    split
    · exact trivial
    · exact plain_raise _ _
  refine hparsed.bind fun parsed _ => (parse_plain evidence).bind fun quote _ => ?_
  exact (delegate_plain _ _ _ _ _ _).bind fun _ _ => plain_ite (plain_raise _ _) trivial

/-- **What leaves a verifier**: it raises `AttestationFailed`, but where it has to derive the binding of fields that have no
encoding or to read a leaf that has no key. -/
theorem verify_plain_iff (hdigest : ∀ octets, (Crypto.sha256 octets).length = 32) (htools : tools.Documented)
    {hv : HardwareVerifier sdk tools} {report : AttestationReport} {nonce : Str} :
    Spec (hv.verify report nonce) (fun _ => True) Exc.isPlain ↔
      (hv.Presents report nonce → report.role = roleCallee ∨ report.role = roleCaller →
        FieldFits report.publicKey ∧ FieldFits report.nonce ∧ hv.LeafReadable report) := by
  cases hv with
  | tpm roots =>
    simp only [verify, tpmVerifier, verifyTpmReport, Presents, LeafReadable, and_true]
    by_cases hnonce : report.nonce = nonce
    swap
    · rw [if_pos hnonce]
      exact iff_of_true (plain_raise _ _) fun h => absurd h.1 hnonce
    rw [if_neg (not_not.mpr hnonce)]
    split
    · rename_i evidence signature hevidence hsignature
      split
      · rename_i hchain
        exact iff_of_true (plain_raise _ _) fun h => by simp [hchain] at h
      · rename_i hchain
        exact iff_of_true (plain_raise _ _) fun h => by simp [hchain] at h
      rename_i x pem hchain
      by_cases hroots : roots = []
      · rw [if_pos hroots]
        exact iff_of_true (plain_raise _ _) fun h => absurd hroots h.2.1
      rw [if_neg hroots, appraiseTpmEvidence_plain_iff hdigest]
      exact ⟨fun h _ => h, fun h =>
        h ⟨hnonce, hroots, ⟨_, hevidence⟩, ⟨_, hsignature⟩, _, hchain, List.cons_ne_nil _ _⟩⟩
    · rename_i hmissing
      refine iff_of_true (plain_raise _ _) fun h => ?_
      obtain ⟨_, _, ⟨evidence, hevidence⟩, ⟨signature, hsignature⟩, _⟩ := h
      exact absurd hsignature (hmissing evidence signature hevidence)
  | sevSnp req _ _ =>
    simp only [verify, SnpRequirements.verify, Presents, LeafReadable]
    cases hevidence : report.rawEvidence with
    | none => exact iff_of_true (plain_raise _ _) fun h => by simp at h
    | some evidence =>
      dsimp only
      by_cases hplatform : report.platform = lit "sev-snp"
      swap
      · rw [if_pos hplatform]
        exact iff_of_true (plain_raise _ _) fun h => absurd h.2.1 hplatform
      rw [if_neg (not_not.mpr hplatform)]
      by_cases hnonce : report.nonce = nonce
      swap
      · rw [if_pos hnonce]
        exact iff_of_true (plain_raise _ _) fun h => absurd h.1 hnonce
      subst hnonce
      have hbinding : Spec (snpReportData report.publicKey report.nonce report.role) (fun _ => True) Exc.isPlain ↔ _ :=
        @reportData_plain_iff _ _ hdigest .snp _ _ _
      rw [if_neg (not_not.mpr rfl), spec_bind_iff, hbinding]
      -- behind the binding only the leaf is read outside of a handler
      have hverified : ∀ binding, Spec (verifySevSnpReport tools evidence req.vcekChain req.trustedRoots
          (some req.expectedMeasurement) (some binding) (some req.requirePlatform) (some req.forbidPlatform)
          req.rejectUnrecognizedPlatformBits) (fun _ => True) Exc.isPlain ↔ _ :=
        fun binding => verifySevSnpReport_plain_iff htools _ _ _ _ _ _ _ _
      by_cases hrole : report.role = roleCallee ∨ report.role = roleCaller
      · refine ⟨fun h _ _ => ?_, fun h => ?_⟩
        · obtain ⟨hkey, hnonce⟩ := h.1 hrole
          obtain ⟨binding, hbound⟩ := reportData_defined hdigest .snp hrole hkey hnonce
          refine ⟨hkey, hnonce, fun evidence' r hevidence' => ?_⟩
          obtain rfl := Option.some.inj hevidence'
          exact (hverified binding).mp (spec_bind_iff.mp (h.2 binding hbound)).1 r
        · obtain ⟨hkey, hnonce, hleaf⟩ := h ⟨rfl, hplatform, evidence, rfl⟩ hrole
          refine ⟨fun _ => ⟨hkey, hnonce⟩, fun binding _ => ?_⟩
          refine ((hverified binding).mpr fun r => hleaf evidence r rfl).bind fun r _ => ?_
          exact plain_ite (plain_raise _ _) (plain_ite (plain_raise _ _) (plain_ite (plain_raise _ _) trivial))
      · refine iff_of_true ⟨fun h => absurd h hrole, fun binding hbound => ?_⟩ fun _ h => absurd h hrole
        obtain ⟨hcallee, hcaller⟩ := not_or.mp hrole
        obtain ⟨message, detail, hraised⟩ := reportData_unknown_role .snp report.publicKey report.nonce hcallee hcaller
        cases hraised.symm.trans hbound

end HardwareVerifier

end

/-- An offer is refused by `AttestationFailed`, as far as the verifier of its report is. -/
theorem verifyOffer_plain_iff [Interp] {verify : Verifier} {offer : ChannelOffer} {nonce role : Str} :
    Spec (verifyOffer offer nonce (some verify) false role) (fun _ => True) Exc.isPlain ↔
      (offer.report.role = role → offer.report.publicKey = offer.channelPublicKey → offer.report.nonce = nonce →
        offer.report.platform ≠ softwareOnly → Spec (verify offer.report nonce) (fun _ => True) Exc.isPlain) := by
  unfold verifyOffer
  by_cases hrole : offer.report.role = role
  swap
  · rw [if_pos hrole]
    exact iff_of_true (plain_raise _ _) fun h => absurd h hrole
  rw [if_neg (not_not.mpr hrole)]
  by_cases hkey : offer.report.publicKey = offer.channelPublicKey
  swap
  · rw [if_pos hkey]
    exact iff_of_true (plain_raise _ _) fun _ h => absurd h hkey
  rw [if_neg (not_not.mpr hkey)]
  by_cases hnonce : offer.report.nonce = nonce
  swap
  · rw [if_pos hnonce]
    exact iff_of_true (plain_raise _ _) fun _ _ h => absurd h hnonce
  rw [if_neg (not_not.mpr hnonce)]
  by_cases hsoft : offer.report.platform = softwareOnly
  · rw [if_pos hsoft]
    exact iff_of_true trivial fun _ _ _ h => absurd hsoft h
  rw [if_neg hsoft, spec_bind_iff]
  exact ⟨fun h _ _ _ _ => h.1, fun h => ⟨h hrole hkey hnonce hsoft, fun _ _ => trivial⟩⟩

/-- **What the appraisal of a caller catches.** A verifier raises `AttestationFailed` without a record unless a report that
carries what it reads, in a role there is, has a key or a nonce without an encoding or leads to a leaf whose key cannot be
read; and so does the appraisal of a caller's offer, unless its challenge cannot be encoded, or its challenge holds and its
report is such a one, in the caller's role and for the offered key. -/
theorem hardwareVerifier_plain_iff [Interp] [Crypto] {sdk : TpmSdk} {tools : SnpTools}
    (hdigest : ∀ octets, (Crypto.sha256 octets).length = 32) (htools : tools.Documented) (hv : HardwareVerifier sdk tools) :
    (∀ report nonce, Spec (hv.verify report nonce) (fun _ => True) Exc.isPlain ↔
      (hv.Presents report nonce → report.role = roleCallee ∨ report.role = roleCaller →
        FieldFits report.publicKey ∧ FieldFits report.nonce ∧ hv.LeafReadable report)) ∧
    ∀ offer secret now, Spec (appraiseCaller offer secret (some hv.verify) now) (fun _ => True) Exc.isPlain ↔
      ¬ DirtyChallenge offer.report.nonce ∧
        (verifyChallenge secret offer.report.nonce now = .ok () → offer.report.role = roleCaller →
          offer.report.publicKey = offer.channelPublicKey → offer.report.platform ≠ softwareOnly →
          hv.Presents offer.report offer.report.nonce →
          FieldFits offer.channelPublicKey ∧ FieldFits offer.report.nonce ∧ hv.LeafReadable offer.report) := by
  refine ⟨fun report nonce => HardwareVerifier.verify_plain_iff hdigest htools, fun offer secret now => ?_⟩
  have hchallenge : Spec (verifyChallenge secret offer.report.nonce now) (fun _ => True) Exc.isPlain ↔
      ¬ DirtyChallenge offer.report.nonce := by
    refine ⟨fun h => contained_verifyChallenge_iff.mp (contained_of_isClass (h.mono (fun _ h => h) fun _ h => h.1)),
      fun h => ?_⟩
    have hclass := verifyChallenge_spec h secret now
    have hfree := recordFree_verifyChallenge secret offer.report.nonce now
    cases hresult : verifyChallenge secret offer.report.nonce now with
    | ok u => exact trivial
    | error e => exact ⟨hclass.of_error hresult, hfree.of_error hresult⟩
  rw [appraiseCaller, spec_bind_iff, hchallenge]
  refine and_congr_right fun _ => ⟨fun h hverifies hrole hkey hhard hpresents => ?_, fun h u hverifies => ?_⟩
  · have hplain := verifyOffer_plain_iff.mp (h () hverifies) hrole hkey rfl hhard
    rw [← hkey]
    exact (HardwareVerifier.verify_plain_iff hdigest htools).mp hplain hpresents (.inr hrole)
  · refine verifyOffer_plain_iff.mpr fun hrole hkey _ hhard => ?_
    refine (HardwareVerifier.verify_plain_iff hdigest htools).mpr fun hpresents _ => ?_
    rw [hkey]
    exact h hverifies hrole hkey hhard hpresents

/-! ## A key without an encoding -/

theorem guestTools_documented (signed : Bytes) : (guestTools signed).Documented where
  publicKey := fun _ => trivial
  verify384 := by
    intro key r s message
    simp only [guestTools]
    split
    · exact trivial
    · exact ⟨_, rfl⟩
  parsePlatformInfo := fun _ => ⟨(), rfl⟩

/-- A caller's offer for a key that has no encoding. -/
def surrogateOffer : ChannelOffer where
  channelPublicKey := [unpairedSurrogate]
  report :=
    { platform := lit "sev-snp"
      measurement := []
      publicKey := [unpairedSurrogate]
      nonce := lit "v1.60.00." ++ List.replicate 64 (cp '0')
      rawEvidence := some []
      role := roleCaller }

/-- A challenge that holds lets such an offer through to the verifier, which raises what no caller of it catches. -/
theorem hardwareVerifier_plain_surrogateOffer :
    let _ := Interp.ascii
    let _ := Crypto.prefixDigest
    let hv : HardwareVerifier toySdk (guestTools []) :=
      .sevSnp (guestRequirements []) List.length_replicate ⟨le_refl _, by decide⟩
    ¬ Spec (appraiseCaller surrogateOffer [] (some hv.verify) 0) (fun _ => True) Exc.isPlain ∧
      Spec (appraiseCaller { surrogateOffer with channelPublicKey := lit "k" } [] (some hv.verify) 0) (fun _ => True)
        Exc.isPlain := by
  intro _ _ hv
  have hplain := (hardwareVerifier_plain_iff prefixDigest_length (guestTools_documented []) hv).2
  refine ⟨fun h => ?_, (hplain _ _ _).mpr ⟨?_, fun _ _ h => ?_⟩⟩
  · obtain ⟨_, hfits⟩ := (hplain _ _ _).mp h
    have hverifies : (verifyChallenge [] surrogateOffer.report.nonce 0).isOk = true := by decide +kernel
    obtain ⟨_, hverifies⟩ := exists_of_isOk hverifies
    obtain ⟨⟨b, hb, _⟩, _⟩ := hfits hverifies rfl rfl (by decide) ⟨rfl, rfl, [], rfl⟩
    have hnone : utf8? [unpairedSurrogate] = none := by decide +kernel
    rw [show surrogateOffer.channelPublicKey = [unpairedSurrogate] from rfl, hnone] at hb
    cases hb
  · exact not_dirtyChallenge (by decide +kernel)
  · cases h

/-! ## The two entry points for a quote -/

/-- The algorithm that a bare signature is taken for under a key. -/
def AkKey.legacyAlg : AkKey → Option Nat
  | .rsa => some algRsassa
  | .ec => some algEcdsa
  | .other => none

/-- Reading the key of a certificate raises nothing of this program's, and its PEM form is not empty. -/
structure AkCerts.Documented (certs : AkCerts) : Prop where
  publicKey : ∀ cert, Spec (certs.publicKey cert) (fun _ => True) fun e => ∃ k t, e = .builtin k t
  pem : ∀ cert, certs.pem cert ≠ []

/-- Where the key of the leaf is looked at, it can be read: for a bare signature, behind the checks of the arguments and the
parse of the quote. -/
def AkCerts.LeafReadable (certs : AkCerts) (attest : Bytes) (signature : QuoteSignature)
    (akChain trustedRoots : List certs.Cert) : Prop :=
  ∀ bare ak rest quote, signature = .bare bare → akChain = ak :: rest → trustedRoots ≠ [] →
    (TpmQuote.parse attest).result = .ok quote → ∃ key, certs.publicKey ak = .ok key

section
variable {sdk : TpmSdk} {certs : AkCerts}

theorem tagLegacyBareSignature_plain_iff (hcerts : certs.Documented) {signature : QuoteSignature} {ak : certs.Cert} :
    Spec (tagLegacyBareSignature certs signature ak) (fun _ => True) Exc.isPlain ↔
      ∀ bare, signature = .bare bare → ∃ key, certs.publicKey ak = .ok key := by
  cases signature with
  | parsed parsed => exact iff_of_true trivial fun _ h => by cases h
  | bare bare =>
    rw [tagLegacyBareSignature]
    cases hkey : certs.publicKey ak with
    | error e =>
      obtain ⟨k, t, rfl⟩ := (hcerts.publicKey ak).of_error hkey
      refine iff_of_false (fun h => h.1) fun h => ?_
      obtain ⟨key, hloads⟩ := h bare rfl
      cases hloads
    | ok key =>
      refine iff_of_true ?_ fun _ _ => ⟨key, rfl⟩
      cases key <;> exact trivial

theorem verifyTpmQuote_plain_iff (hcerts : certs.Documented) {attest : Bytes} {signature : QuoteSignature}
    {akChain trustedRoots : List certs.Cert} {pcrDigest qualifyingData : Option Bytes} :
    Spec (verifyTpmQuote sdk certs attest signature akChain trustedRoots pcrDigest qualifyingData) (fun _ => True)
        Exc.isPlain ↔ certs.LeafReadable attest signature akChain trustedRoots := by
  unfold verifyTpmQuote
  cases akChain with
  | nil => exact iff_of_true (plain_raise _ _) fun _ _ _ _ _ h => by cases h
  | cons ak rest =>
    dsimp only
    split
    · rename_i hroots
      exact iff_of_true (plain_raise _ _) fun _ _ _ _ _ _ h => absurd hroots h
    · rename_i hroots
      rw [spec_bind_iff, and_iff_right (parse_plain attest)]
      refine ⟨fun h bare ak' rest' quote hsignature hchain _ hparse => ?_, fun h quote hparse => ?_⟩
      · obtain ⟨rfl, rfl⟩ := List.cons.inj hchain
        exact (tagLegacyBareSignature_plain_iff hcerts).mp (spec_bind_iff.mp (h quote hparse)).1 bare hsignature
      · have htag : Spec (tagLegacyBareSignature certs signature ak) (fun _ => True) Exc.isPlain :=
          (tagLegacyBareSignature_plain_iff hcerts).mpr fun bare hsignature =>
            h bare ak rest quote hsignature rfl hroots hparse
        exact htag.bind fun tagged _ => (delegate_plain _ _ _ _ _ _).bind fun _ _ => trivial

/-- A bare signature is the marshalled one of the key's own algorithm, with SHA-256. -/
theorem verifyTpmQuote_bare {ak : certs.Cert} {key : AkKey} {alg : Nat} (hkey : certs.publicKey ak = .ok key)
    (halg : key.legacyAlg = some alg) (attest bare : Bytes) (rest trustedRoots : List certs.Cert)
    (pcrDigest qualifyingData : Option Bytes) :
    verifyTpmQuote sdk certs attest (.bare bare) (ak :: rest) trustedRoots pcrDigest qualifyingData =
      verifyTpmQuote sdk certs attest (.parsed ⟨alg, algSha256, bare⟩) (ak :: rest) trustedRoots pcrDigest qualifyingData := by
  have htag : tagLegacyBareSignature certs (.bare bare) ak =
      tagLegacyBareSignature certs (.parsed ⟨alg, algSha256, bare⟩) ak := by
    simp only [tagLegacyBareSignature, hkey, ok_bind]
    cases key with
    | other => cases halg
    | rsa | ec =>
      cases halg
      rfl
  simp only [verifyTpmQuote, htag]

/-- **The entry points for a TPM quote.** `verify_tpm_quote` raises `AttestationFailed`, but where it reads the key of a leaf
that has none for a bare signature; a bare signature stands for the marshalled one of that key's algorithm; and
`verify_tpm_report` accepts a report where `verify_tpm_quote` accepts its quote for the binding of its fields. -/
theorem tpmQuote_entryPoints [Interp] [Crypto] (sdk : TpmSdk) (certs : AkCerts) (hcerts : certs.Documented) :
    (∀ attest signature akChain trustedRoots pcrDigest qualifyingData,
      Spec (verifyTpmQuote sdk certs attest signature akChain trustedRoots pcrDigest qualifyingData) (fun _ => True)
        Exc.isPlain ↔ certs.LeafReadable attest signature akChain trustedRoots) ∧
    (∀ ak key alg, certs.publicKey ak = .ok key → key.legacyAlg = some alg →
      ∀ attest bare rest trustedRoots pcrDigest qualifyingData,
        verifyTpmQuote sdk certs attest (.bare bare) (ak :: rest) trustedRoots pcrDigest qualifyingData =
          verifyTpmQuote sdk certs attest (.parsed ⟨alg, algSha256, bare⟩) (ak :: rest) trustedRoots pcrDigest
            qualifyingData) ∧
    ∀ (akChain trustedRoots : List certs.Cert) (report : AttestationReport) (nonce measurement : Str),
      report.attestationKeyChainPem = some (akChain.flatMap certs.pem) →
      (verifyTpmReport sdk (trustedRoots.flatMap certs.pem) report nonce = .ok measurement ↔
        report.nonce = nonce ∧ ∃ evidence quoteSignature binding parsed quote, report.rawEvidence = some evidence ∧
          report.quoteSignature = some quoteSignature ∧
          tpmQualifyingData report.publicKey report.nonce report.role = .ok binding ∧
          parseTpmtSignature sdk quoteSignature = .ok parsed ∧
          verifyTpmQuote sdk certs evidence (.parsed parsed) akChain trustedRoots none (some binding) = .ok quote ∧
          measurement = lit "sha256:" ++ hex quote.pcrDigest ∧ report.measurement = measurement) := by
  refine ⟨fun attest signature akChain trustedRoots pcrDigest qualifyingData => verifyTpmQuote_plain_iff hcerts, ?_, ?_⟩
  · intro ak key alg hkey halg attest bare rest trustedRoots pcrDigest qualifyingData
    exact verifyTpmQuote_bare hkey halg attest bare rest trustedRoots pcrDigest qualifyingData
  · intro akChain trustedRoots report nonce measurement hchain
    exact verifyTpmReport_iff_quote hcerts.pem hchain

end

/-- One certificate whose key is an RSA key, and one whose key cannot be read. -/
def twoCerts : AkCerts where
  Cert := Bool
  publicKey := fun readable => if readable then .ok .rsa else .error (.builtin .valueError (lit "Could not deserialize key data"))
  pem := fun readable => if readable then [1] else [2]

theorem twoCerts_documented : twoCerts.Documented where
  publicKey := by
    intro cert
    cases cert with
    | false => exact ⟨_, _, rfl⟩
    | true => exact trivial
  pem := by
    intro cert
    cases cert <;> decide

/-- A quote over this data, of no register. -/
def attestOver (data : Bytes) : Bytes :=
  toBig 4 tpmGeneratedValue ++ (toBig 2 tpmStAttestQuote ++ (sized [] ++ (sized data ++
    List.replicate 31 0)))

/-- A report whose quote is over the binding of its fields. -/
def quotedReport [Interp] [Crypto] : AttestationReport where
  platform := lit "tpm"
  measurement := lit "sha256:"
  publicKey := lit "k"
  nonce := lit "n"
  rawEvidence := (tpmQualifyingData (lit "k") (lit "n") roleCallee).toOption.map attestOver
  quoteSignature := some [7]
  attestationKeyChainPem := some [1]
  role := roleCallee

theorem tpmQuote_entryPoints_twoCerts :
    let _ := Interp.ascii
    let _ := Crypto.prefixDigest
    ¬ Spec (verifyTpmQuote toySdk twoCerts (attestOver []) (.bare [7]) [false] [false] none none) (fun _ => True) Exc.isPlain ∧
      Spec (verifyTpmQuote toySdk twoCerts (attestOver []) (.bare [7]) [true] [false] none none) (fun _ => True) Exc.isPlain ∧
      verifyTpmQuote toySdk twoCerts (attestOver []) (.bare [7]) [true] [true] none none =
        verifyTpmQuote toySdk twoCerts (attestOver []) (.parsed ⟨algRsassa, algSha256, [7]⟩) [true] [true] none none ∧
      ∃ measurement evidence parsed binding quote, verifyTpmReport toySdk [1] quotedReport (lit "n") = .ok measurement ∧
        verifyTpmQuote toySdk twoCerts evidence (.parsed parsed) [true] [true] none (some binding) = .ok quote := by
  intro _ _
  obtain ⟨hplain, hbare, hreport⟩ := tpmQuote_entryPoints toySdk twoCerts twoCerts_documented
  refine ⟨fun h => ?_, (hplain _ _ _ _ _ _).mpr fun bare ak rest quote _ hchain _ _ => ?_,
    hbare true .rsa _ rfl rfl _ _ _ _ _ _, ?_⟩
  · have hparses : (TpmQuote.parse (attestOver [])).result.isOk = true := by decide +kernel
    obtain ⟨quote, hquote⟩ := exists_of_isOk hparses
    obtain ⟨key, hkey⟩ := (hplain _ _ _ _ _ _).mp h [7] false [] quote rfl rfl (by decide) hquote
    cases hkey
  · obtain ⟨rfl, _⟩ := List.cons.inj hchain
    exact ⟨.rsa, rfl⟩
  · have haccepted : (verifyTpmReport toySdk [1] quotedReport (lit "n")).isOk = true := by decide +kernel
    obtain ⟨measurement, hmeasured⟩ := exists_of_isOk haccepted
    obtain ⟨_, evidence, _, binding, parsed, quote, _, _, _, _, hquote, _⟩ :=
      (hreport [true] [true] quotedReport _ _ rfl).mp hmeasured
    exact ⟨measurement, evidence, parsed, binding, quote, hmeasured, hquote⟩

end Ca2a
