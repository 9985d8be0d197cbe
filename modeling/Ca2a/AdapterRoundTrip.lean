/-
What a node attaches to a message, it parses back.

Each wire form has a law for the values that can come off the wire
(`fromDict_credentialToDict`, `parseChannelOffer_serialize`, …), so parsing
reads off the metadata what was written there. Which metadata is read is the
other half: the parser merges two maps and the writer clears one, so a
key that an earlier request left in the map of `params` survives when the
message has a map of its own (`Stale`).
-/
import Ca2a.Adapter

namespace Ca2a

open Py

/-! ## base64url -/

theorem b64Val?_b64Char {n : Nat} (h : n < 64) : b64Val? (b64Char n) = some n := by
  have hall : ∀ n : Fin 64, b64Val? (b64Char n) = some n.val := by decide +kernel
  exact hall ⟨n, h⟩

theorem b64Digits_lt (value : Bytes) : ∀ n ∈ b64Digits value, n < 64 := by
  induction value using b64Digits.induct with
  | case1 => simp [b64Digits]
  | case2 a =>
    have ha := a.toNat_lt
    simp [b64Digits]
    omega
  | case3 a b =>
    have ha := a.toNat_lt
    have hb := b.toNat_lt
    simp [b64Digits]
    omega
  | case4 a b c rest ih =>
    have ha := a.toNat_lt
    have hb := b.toNat_lt
    have hc := c.toNat_lt
    simp only [b64Digits, List.forall_mem_cons]
    exact ⟨by omega, by omega, by omega, by omega, ih⟩

/-- The octet of a number it was split into. -/
theorem ofNat_eq_of_toNat {a : UInt8} {n : Nat} (h : n = a.toNat) : UInt8.ofNat n = a := by
  rw [h, UInt8.ofNat_toNat]

theorem octet_of_one (a : UInt8) : UInt8.ofNat (a.toNat / 4 * 4 + a.toNat % 4 * 16 / 16) = a :=
  ofNat_eq_of_toNat (by omega)

/-- The first octet of a group, from its two digits. -/
theorem octet_first (a b : UInt8) : UInt8.ofNat (a.toNat / 4 * 4 + (a.toNat % 4 * 16 + b.toNat / 16) / 16) = a := by
  have hb := b.toNat_lt
  exact ofNat_eq_of_toNat (by omega)

theorem octet_of_two (a b : UInt8) :
    UInt8.ofNat ((a.toNat % 4 * 16 + b.toNat / 16) % 16 * 16 + b.toNat % 16 * 4 / 4) = b := by
  have hb := b.toNat_lt
  exact ofNat_eq_of_toNat (by omega)

/-- The second octet of a group of three, from its two digits. -/
theorem octet_second (a b c : UInt8) :
    UInt8.ofNat ((a.toNat % 4 * 16 + b.toNat / 16) % 16 * 16 + (b.toNat % 16 * 4 + c.toNat / 64) / 4) = b := by
  have hb := b.toNat_lt
  have hc := c.toNat_lt
  exact ofNat_eq_of_toNat (by omega)

/-- The third octet of a group, from its two digits. -/
theorem octet_third (b c : UInt8) : UInt8.ofNat ((b.toNat % 16 * 4 + c.toNat / 64) % 4 * 64 + c.toNat % 64) = c := by
  have hc := c.toNat_lt
  exact ofNat_eq_of_toNat (by omega)

theorem b64Octets?_b64Digits (value : Bytes) : b64Octets? (b64Digits value) = some value := by
  induction value using b64Digits.induct with
  | case1 => rfl
  | case2 a => simp only [b64Digits, b64Octets?, octet_of_one]
  | case3 a b => simp only [b64Digits, b64Octets?, octet_first, octet_of_two]
  | case4 a b c rest ih =>
    simp only [b64Digits, b64Octets?, ih, Option.map_some, octet_first, octet_second, octet_third]

/-- The digits of the alphabet are read back. -/
theorem mapM_b64Val?_map {digits : List Nat} (h : ∀ n ∈ digits, n < 64) :
    (digits.map b64Char).mapM b64Val? = some digits := by
  induction digits with
  | nil => rfl
  | cons n digits ih =>
    rw [List.map_cons, List.mapM_cons, b64Val?_b64Char (h n (by simp)), ih fun m hm => h m (by simp [hm])]
    rfl

section
variable [Interp]

/-- Octets, if there are any, come back. -/
theorem b64urlDecode_b64urlEncode (field : Str) {value : Bytes} (h : value ≠ []) :
    b64urlDecode field (.str (b64urlEncode value)) = .ok value := by
  have hne : b64urlEncode value ≠ [] := by
    cases value with
    | nil => exact absurd rfl h
    | cons a rest =>
      rcases rest with _ | ⟨b, _ | ⟨c, rest⟩⟩
      all_goals simp [b64urlEncode, b64Digits]
  have hdigits : (b64urlEncode value).mapM b64Val? = some (b64Digits value) := mapM_b64Val?_map (b64Digits_lt value)
  simp only [b64urlDecode, Json.str?, Option.bind_some, hne, if_false, hdigits, b64Octets?_b64Digits]

end

/-! ## Credentials -/

/-- The credential is one `from_dict` can return. -/
structure DelegationCredential.WireValid (c : DelegationCredential) : Prop where
  credentialId : c.credentialId ≠ []
  issuer : isLowerHex 64 c.issuer = true
  subject : isLowerHex 64 c.subject = true
  scope : c.scope ≠ ∅ ∧ ∀ s ∈ c.scope, s ≠ []
  depth : 0 ≤ c.depth
  parentId : c.parentId ≠ some []
  signature : isLowerHex 128 c.signature = true

theorem credentialToDict_eq (c : DelegationCredential) :
    credentialToDict c =
      [(lit "credential_id", .str c.credentialId), (lit "issuer", .str c.issuer), (lit "subject", .str c.subject),
        (lit "scope", strArr (sortedStrs c.scope)), (lit "depth", .int c.depth), (lit "parent_id", optStr c.parentId)] ++
        optField (lit "not_before") (c.notBefore.map fun n : Nat => .int n) ++
        optField (lit "not_after") (c.notAfter.map fun n : Nat => .int n) ++ [(lit "signature", .str c.signature)] := by
  have hnot : lit "signature" ∉ Dict.keys (itemsOf (some c.body)) := by
    cases hb : c.notBefore <;> cases ha : c.notAfter <;>
      simp [DelegationCredential.body, itemsOf, Dict.keys, optField, hb, ha]
  rw [credentialToDict, Dict.set_of_not_mem hnot]
  rfl

theorem credentialToDict_keys (c : DelegationCredential) :
    ((Dict.keys (credentialToDict c)).toFinset \ DelegationCredential.requiredFields) \ DelegationCredential.optionalFields = ∅ ∧
      DelegationCredential.requiredFields \ (Dict.keys (credentialToDict c)).toFinset = ∅ := by
  have hkeys : Dict.keys (credentialToDict c) =
      [lit "credential_id", lit "issuer", lit "subject", lit "scope", lit "depth", lit "parent_id"] ++
        (c.notBefore.map fun _ => lit "not_before").toList ++ (c.notAfter.map fun _ => lit "not_after").toList ++
        [lit "signature"] := by
    rw [credentialToDict_eq]
    cases c.notBefore <;> cases c.notAfter <;> rfl
  rw [hkeys, Finset.sdiff_eq_empty_iff_subset, Finset.sdiff_eq_empty_iff_subset]
  constructor
  · intro k hk
    simp only [Finset.mem_sdiff, List.mem_toFinset, List.mem_append, List.mem_cons, List.not_mem_nil, or_false,
      Option.mem_toList, Option.map_eq_some_iff] at hk
    obtain ⟨((hk | ⟨_, _, rfl⟩) | ⟨_, _, rfl⟩) | rfl, hnot⟩ := hk
    · simp only [DelegationCredential.requiredFields, Finset.mem_insert, Finset.mem_singleton, not_or] at hnot
      rcases hk with rfl | rfl | rfl | rfl | rfl | rfl <;> simp at hnot
    · simp [DelegationCredential.optionalFields]
    · simp [DelegationCredential.optionalFields]
    · simp [DelegationCredential.requiredFields] at hnot
  · intro k hk
    simp only [DelegationCredential.requiredFields, Finset.mem_insert, Finset.mem_singleton] at hk
    rcases hk with rfl | rfl | rfl | rfl | rfl | rfl | rfl <;> simp

theorem nonEmptyStrs?_map {l : List Str} (h : ∀ s ∈ l, s ≠ []) :
    DelegationCredential.nonEmptyStrs? (l.map .str) = some l := by
  unfold DelegationCredential.nonEmptyStrs?
  induction l with
  | nil => rfl
  | cons s l ih =>
    rw [List.map_cons, List.mapM_cons, ih fun t ht => h t (by simp [ht])]
    simp [h s (by simp)]

theorem scopeField_strArr {scope : Finset Str} (h : scope ≠ ∅ ∧ ∀ s ∈ scope, s ≠ []) :
    DelegationCredential.scopeField (strArr (sortedStrs scope)) = .ok scope := by
  have hmap : DelegationCredential.nonEmptyStrs? ((sortedStrs scope).map .str) = some (sortedStrs scope) :=
    nonEmptyStrs?_map fun s hs => h.2 s (mem_sortedStrs.mp hs)
  have hok : sortedStrs scope ≠ [] ∧ (sortedStrs scope).Nodup := by
    refine ⟨fun he => h.1 ?_, Finset.sort_nodup _ _⟩
    have := congrArg List.toFinset he
    rwa [sortedStrs, Finset.sort_toFinset] at this
  simp only [strArr, DelegationCredential.scopeField, hmap]
  rw [if_pos hok, sortedStrs, Finset.sort_toFinset]

section
variable [Interp]

/-- A credential `from_dict` can return comes back. -/
theorem fromDict_credentialToDict {c : DelegationCredential} (h : c.WireValid) :
    DelegationCredential.fromDict (.obj (credentialToDict c)) = .ok c := by
  obtain ⟨hunknown, hmissing⟩ := credentialToDict_keys c
  have hparent : DelegationCredential.parentField (optStr c.parentId) = .ok c.parentId := by
    cases hp : c.parentId with
    | none => rfl
    | some p =>
      have hne : p ≠ [] := by
        rintro rfl
        exact h.parentId hp
      simp [optStr, DelegationCredential.parentField, hne]
  have hdepth : DelegationCredential.depthField (.int c.depth) = .ok c.depth := if_pos h.depth
  have hnb : DelegationCredential.boundField (credentialToDict c) "not_before" = .ok c.notBefore := by
    rw [DelegationCredential.boundField, credentialToDict_eq]
    cases c.notBefore <;> cases c.notAfter <;> simp [Dict.get?_cons, optField]
  have hna : DelegationCredential.boundField (credentialToDict c) "not_after" = .ok c.notAfter := by
    rw [DelegationCredential.boundField, credentialToDict_eq]
    cases c.notBefore <;> cases c.notAfter <;> simp [Dict.get?_cons, optField]
  have hsig : Dict.get? (credentialToDict c) (lit "signature") = some (.str c.signature) := by
    rw [credentialToDict, Dict.get?_set_self]
  have hrest : ∀ k ≠ lit "signature", Dict.get? (credentialToDict c) k = Dict.get? (itemsOf (some c.body)) k := fun k hk =>
    Dict.get?_set_other _ _ hk
  simp only [DelegationCredential.fromDict, hunknown, hmissing, ne_eq, not_true_eq_false, or_self, if_false, hnb, hna, hsig]
  simp [hrest, DelegationCredential.body, itemsOf, Dict.get?_cons, DelegationCredential.textField, h.credentialId,
    h.issuer, h.subject, h.signature, scopeField_strArr h.scope, hdepth, hparent, c.window]

/-! ## Offers, proofs, chains -/

/-- The offer is one `parse_channel_offer` can return. -/
structure ChannelOffer.WireValid (offer : ChannelOffer) : Prop where
  role : offer.report.role ∈ roles
  rawEvidence : offer.report.rawEvidence ≠ some []
  quoteSignature : offer.report.quoteSignature ≠ some []
  attestationKeyPem : offer.report.attestationKeyPem ≠ some []
  attestationKeyChainPem : offer.report.attestationKeyChainPem ≠ some []

theorem evidenceField_obj {d : Dict Json} {field : Str} {value : Option Bytes} (h : value ≠ some [])
    (hd : Dict.get? d field = value.map fun b => .str (b64urlEncode b)) : evidenceField (.obj d) field = .ok value := by
  cases value with
  | none =>
    have hhas : Dict.has d field = false := by simp [Dict.has, hd]
    simp [evidenceField, containsKey, hhas]
  | some b =>
    have hhas : Dict.has d field = true := by simp [Dict.has, hd]
    have hne : b ≠ [] := fun he => h (by rw [he])
    simp [evidenceField, containsKey, hhas, subscript, hd, b64urlDecode_b64urlEncode field hne]

/-- An offer `parse_channel_offer` can return comes back, with or without a challenge beside it. -/
theorem parseChannelOffer_serialize {offer : ChannelOffer} (h : offer.WireValid) (challenge : Option Str) :
    parseChannelOffer (.obj (serializeChannelOffer offer challenge)) = .ok offer := by
  obtain ⟨key, report⟩ := offer
  have hraw : evidenceField (.obj (attestationItems report)) (lit "raw_evidence") = .ok report.rawEvidence :=
    evidenceField_obj h.rawEvidence (by
      simp [attestationItems, attestationItems.evidence, Dict.get?_append, Dict.get?_cons, get?_optField])
  have hquote : evidenceField (.obj (attestationItems report)) (lit "quote_signature") = .ok report.quoteSignature :=
    evidenceField_obj h.quoteSignature (by
      simp [attestationItems, attestationItems.evidence, Dict.get?_append, Dict.get?_cons, get?_optField])
  have hkey : evidenceField (.obj (attestationItems report)) (lit "attestation_key_pem") = .ok report.attestationKeyPem :=
    evidenceField_obj h.attestationKeyPem (by
      simp [attestationItems, attestationItems.evidence, Dict.get?_append, Dict.get?_cons, get?_optField])
  have hchain : evidenceField (.obj (attestationItems report)) (lit "attestation_key_chain_pem") =
      .ok report.attestationKeyChainPem :=
    evidenceField_obj h.attestationKeyChainPem (by
      simp [attestationItems, attestationItems.evidence, Dict.get?_append, Dict.get?_cons, get?_optField])
  have hrole : (Dict.get? (attestationItems report) (lit "role")).getD (.str roleCallee) = .str report.role := by
    by_cases hr : report.role = roleCallee
    · simp [attestationItems, attestationItems.evidence, Dict.get?_append, Dict.get?_cons, get?_optField, hr]
    · simp [attestationItems, attestationItems.evidence, Dict.get?_append, Dict.get?_cons, get?_optField, hr]
  have hroles : roleField (.str report.role) = .ok report.role := if_pos h.role
  have hatt : Dict.get? (serializeChannelOffer ⟨key, report⟩ challenge) (lit "attestation") =
      some (.obj (attestationItems report)) := by
    simp [serializeChannelOffer, Dict.get?_cons]
  have hpub : Dict.get? (serializeChannelOffer ⟨key, report⟩ challenge) (lit "channel_public_key") = some (.str key) := by
    simp [serializeChannelOffer, Dict.get?_cons]
  simp only [parseChannelOffer, subscript, hatt, hpub, ok_bind, hraw, hquote, hkey, hchain, getDefault, hrole, hroles]
  simp [attestationItems, Dict.get?_cons, Json.text, catchBuiltin]

omit [Interp] in
theorem parseChallenge_serialize {offer : ChannelOffer} {challenge : Option Str} (h : challenge ≠ some []) :
    parseChallenge (serializeChannelOffer offer challenge) = .ok challenge := by
  cases challenge with
  | none => simp [parseChallenge, serializeChannelOffer, Dict.get?_cons, optField]
  | some c =>
    cases c with
    | nil => exact absurd rfl h
    | cons a c => simp [parseChallenge, serializeChannelOffer, Dict.get?_cons, optField]

omit [Interp] in
theorem HolderProof.fromDict_toDict {proof : HolderProof} (hc : proof.challenge ≠ []) (hs : proof.signature ≠ []) :
    HolderProof.fromDict (.obj proof.toDict) = .ok proof := by
  obtain ⟨_ | ⟨c, challenge⟩, _ | ⟨s, signature⟩⟩ := proof
  · exact absurd rfl hc
  · exact absurd rfl hc
  · exact absurd rfl hs
  · simp [HolderProof.fromDict, HolderProof.toDict, Dict.get?_cons]

omit [Interp] in
theorem CallerPossession.fromDict_toDict {possession : CallerPossession} (hv : possession.version ≠ [])
    (hm : possession.mac ≠ []) : CallerPossession.fromDict (.obj possession.toDict) = .ok possession := by
  obtain ⟨_ | ⟨v, version⟩, _ | ⟨m, mac⟩⟩ := possession
  · exact absurd rfl hv
  · exact absurd rfl hv
  · exact absurd rfl hm
  · simp [CallerPossession.fromDict, CallerPossession.toDict, Dict.get?_cons]

theorem parseHops_credentialToDict {chain : List DelegationCredential} (h : ∀ c ∈ chain, c.WireValid) (i : Nat) :
    parseHops i (chain.map fun c => .obj (credentialToDict c)) = .ok chain := by
  induction chain generalizing i with
  | nil => rfl
  | cons c chain ih =>
    have hhop : parseHop i (.obj (credentialToDict c)) = .ok c := by
      simp only [parseHop, fromDict_credentialToDict (h c (by simp)), catchClass]
    rw [List.map_cons, parseHops, hhop, ok_bind, ih fun c' hc' => h c' (by simp [hc'])]
    rfl

end

/-! ## The map that is written -/

/-- The keys of the request's fields and what is written under each, nothing for one that is popped. -/
def fieldsOf (r : PeerRequest) : Dict (Option Json) :=
  [(keyDelegationChain, some (.arr (r.chain.map fun c => .obj (credentialToDict c)))),
    (keyRequestedCapability, some (.str r.requestedCapability)), (keyRecordId, some (.str r.recordId)),
    (keyParentRecordHash, some (optStr r.parentRecordHash)),
    (keySealedPayload, r.sealedPayload.map fun b => .str (b64urlEncode b)),
    (keyCallerOffer, r.callerOffer.map fun o => .obj (serializeChannelOffer o)),
    (keyHolderProof, r.holderProof.map fun p => .obj p.toDict),
    (keyCallerPossession, r.callerPossession.map fun p => .obj p.toDict)]

theorem keys_fieldsOf (r : PeerRequest) : Dict.keys (fieldsOf r) = ca2aMetadataKeys := rfl

theorem ca2aMetadataKeys_nodup : ca2aMetadataKeys.Nodup := by
  simp [ca2aMetadataKeys, keyDelegationChain, keyRequestedCapability, keyRecordId, keyParentRecordHash,
    keySealedPayload, keyCallerOffer, keyHolderProof, keyCallerPossession]

/-- Each field put or popped in turn. -/
def putFields (fields : Dict (Option Json)) (metadata : Dict Json) : Dict Json :=
  fields.foldl (fun d kv => putOrPop d kv.1 kv.2) metadata

theorem writeFields_eq (r : PeerRequest) (metadata : Dict Json) :
    writeFields r metadata = putFields (fieldsOf r) metadata := rfl

theorem get?_putOrPop_self (d : Dict Json) (k : Str) (o : Option Json) : Dict.get? (putOrPop d k o) k = o := by
  cases o with
  | none => exact Dict.get?_erase_self d k
  | some v => exact Dict.get?_set_self d k v

theorem get?_putOrPop_other (d : Dict Json) {k k' : Str} (o : Option Json) (h : k' ≠ k) :
    Dict.get? (putOrPop d k o) k' = Dict.get? d k' := by
  cases o with
  | none => exact Dict.get?_erase_other d h
  | some v => exact Dict.get?_set_other d v h

theorem get?_putFields {fields : Dict (Option Json)} (hf : (Dict.keys fields).Nodup) (metadata : Dict Json) (k : Str) :
    Dict.get? (putFields fields metadata) k = (Dict.get? fields k).getD (Dict.get? metadata k) := by
  induction fields generalizing metadata with
  | nil => rfl
  | cons kv fields ih =>
    obtain ⟨k', o⟩ := kv
    simp only [Dict.keys, List.map_cons, List.nodup_cons] at hf
    have hstep : Dict.get? (putFields ((k', o) :: fields) metadata) k =
        (Dict.get? fields k).getD (Dict.get? (putOrPop metadata k' o) k) := ih hf.2 _
    rw [hstep, Dict.get?_cons]
    by_cases hk : k' = k
    · subst hk
      have hnone : Dict.get? fields k' = none := Dict.get?_eq_none_iff.mpr hf.1
      simp [hnone, get?_putOrPop_self]
    · rw [get?_putOrPop_other _ _ (Ne.symm hk), if_neg hk]

theorem get?_writeFields (r : PeerRequest) (metadata : Dict Json) (k : Str) :
    Dict.get? (writeFields r metadata) k = (Dict.get? (fieldsOf r) k).getD (Dict.get? metadata k) := by
  rw [writeFields_eq, get?_putFields (by rw [keys_fieldsOf]; exact ca2aMetadataKeys_nodup)]

theorem keys_putFields_nodup (fields : Dict (Option Json)) {metadata : Dict Json} (h : (Dict.keys metadata).Nodup) :
    (Dict.keys (putFields fields metadata)).Nodup := by
  induction fields generalizing metadata with
  | nil => exact h
  | cons kv fields ih =>
    refine ih ?_
    obtain ⟨k, _ | v⟩ := kv
    · exact (Dict.keys_erase_sublist _ _).nodup h
    · exact Dict.keys_set_nodup h k v

/-! What is written is a dictionary all the way down. -/

theorem wf_credentialToDict (c : DelegationCredential) : (Json.obj (credentialToDict c)).WF :=
  Json.WF.set c.wf_body _ (Json.wf_str _)

theorem keys_optField_sublist (k : Str) (o : Option Json) : (Dict.keys (optField k o)).Sublist [k] := by
  cases o <;> simp [optField, Dict.keys]

/-- The keys of a report, all of them when nothing is left out. -/
theorem keys_attestationItems_sublist (report : AttestationReport) :
    (Dict.keys (attestationItems report)).Sublist
      ([lit "platform", lit "measurement", lit "public_key", lit "nonce"] ++ [lit "role"] ++ [lit "raw_evidence"] ++
        [lit "quote_signature"] ++ [lit "attestation_key_pem"] ++ [lit "attestation_key_chain_pem"]) := by
  rw [attestationItems]
  simp only [Dict.keys_append]
  refine List.Sublist.append ?_ (keys_optField_sublist _ _)
  refine List.Sublist.append ?_ (keys_optField_sublist _ _)
  refine List.Sublist.append ?_ (keys_optField_sublist _ _)
  refine List.Sublist.append ?_ (keys_optField_sublist _ _)
  exact List.Sublist.append (List.Sublist.refl _) (keys_optField_sublist _ _)

theorem wf_of_mem_evidence {field : String} {value : Option Bytes} {kv : Str × Json}
    (h : kv ∈ attestationItems.evidence field value) : kv.2.WF := by
  obtain ⟨j, hj, rfl⟩ := mem_optField.mp h
  obtain ⟨b, _, rfl⟩ := Option.map_eq_some_iff.mp hj
  exact Json.wf_str _

theorem wf_attestationItems (report : AttestationReport) : (Json.obj (attestationItems report)).WF := by
  refine Json.wf_obj.mpr ⟨(keys_attestationItems_sublist report).nodup (by simp), fun kv hkv => ?_⟩
  simp only [attestationItems, List.mem_append] at hkv
  rcases hkv with ((((hkv | hkv) | hkv) | hkv) | hkv) | hkv
  · simp only [List.mem_cons, List.not_mem_nil, or_false] at hkv
    rcases hkv with rfl | rfl | rfl | rfl <;> exact Json.wf_str _
  · obtain ⟨j, hj, rfl⟩ := mem_optField.mp hkv
    rw [Option.ite_none_left_eq_some, Option.some.injEq] at hj
    rw [← hj.2]
    exact Json.wf_str _
  · exact wf_of_mem_evidence hkv
  · exact wf_of_mem_evidence hkv
  · exact wf_of_mem_evidence hkv
  · exact wf_of_mem_evidence hkv

theorem wf_serializeChannelOffer (offer : ChannelOffer) (challenge : Option Str) :
    (Json.obj (serializeChannelOffer offer challenge)).WF := by
  have h := Json.wf_obj.mp (wf_attestationItems offer.report)
  cases challenge <;> simpa [serializeChannelOffer, optField, Dict.keys] using h

theorem wf_putFields {fields : Dict (Option Json)} {metadata : Dict Json} (hf : ∀ kv ∈ fields, ∀ v ∈ kv.2, v.WF)
    (h : (Json.obj metadata).WF) : (Json.obj (putFields fields metadata)).WF := by
  induction fields generalizing metadata with
  | nil => exact h
  | cons kv fields ih =>
    refine ih (fun kv' hkv' => hf kv' (by simp [hkv'])) ?_
    obtain ⟨k, _ | v⟩ := kv
    · exact h.erase k
    · exact h.set k (hf (k, some v) (by simp) v rfl)

theorem wf_writeFields (r : PeerRequest) {metadata : Dict Json} (h : (Json.obj metadata).WF) :
    (Json.obj (writeFields r metadata)).WF := by
  rw [writeFields_eq]
  refine wf_putFields ?_ h
  intro kv hkv v hv
  simp only [fieldsOf, List.mem_cons, List.not_mem_nil, or_false] at hkv
  rcases hkv with rfl | rfl | rfl | rfl | rfl | rfl | rfl | rfl
  · cases hv
    simp only [Json.wf_arr, List.mem_map, forall_exists_index, and_imp]
    rintro _ c _ rfl
    exact wf_credentialToDict c
  · cases hv
    exact Json.wf_str _
  · cases hv
    exact Json.wf_str _
  · cases hv
    exact wf_optStr _
  · obtain ⟨b, _, rfl⟩ := Option.map_eq_some_iff.mp hv
    exact Json.wf_str _
  · obtain ⟨offer, _, rfl⟩ := Option.map_eq_some_iff.mp hv
    exact wf_serializeChannelOffer offer none
  · obtain ⟨proof, _, rfl⟩ := Option.map_eq_some_iff.mp hv
    simp [HolderProof.toDict, Dict.keys]
  · obtain ⟨possession, _, rfl⟩ := Option.map_eq_some_iff.mp hv
    simp [CallerPossession.toDict, Dict.keys]

/-! ## The map that is read -/

/-- The value, when it is a dictionary. -/
def dict? : Option Json → Option (Dict Json)
  | some (.obj d) => some d
  | _ => none

theorem dict?_eq_some_iff {o : Option Json} {d : Dict Json} : dict? o = some d ↔ o = some (.obj d) := by
  unfold dict?
  split <;> simp_all

@[simp] theorem dict?_obj (d : Dict Json) : dict? (some (.obj d)) = some d := rfl

@[simp] theorem itemsOf_obj (d : Dict Json) : itemsOf (some (.obj d)) = d := rfl

theorem collectMetadata_eq (m : Dict Json) :
    collectMetadata m =
      match dict? (Dict.get? m (lit "params")) with
      | none => Dict.update [] (itemsOf (Dict.get? m (lit "metadata")))
      | some params =>
        match dict? (Dict.get? params (lit "message")) with
        | none => Dict.update [] (itemsOf (Dict.get? params (lit "metadata")))
        | some msg => Dict.update (Dict.update [] (itemsOf (Dict.get? params (lit "metadata"))))
            (itemsOf (Dict.get? msg (lit "metadata"))) := by
  unfold collectMetadata dict?
  repeat' split
  all_goals simp_all

theorem attachTarget_eq (m : Dict Json) (write : Dict Json → Dict Json) :
    attachTarget m write =
      match dict? (Dict.get? m (lit "params")) with
      | none => writeMetadata m write
      | some params =>
        match dict? (Dict.get? params (lit "message")) with
        | none => writeMetadata params write >>= fun params => .ok (Dict.set m (lit "params") (.obj params))
        | some msg => writeMetadata msg write >>= fun msg =>
          .ok (Dict.set m (lit "params") (.obj (Dict.set params (lit "message") (.obj msg)))) := by
  unfold attachTarget dict?
  repeat' split
  all_goals simp_all

/-- The metadata of `params` that is read beside that of the message inside it. -/
def outerMetadata (m : Dict Json) : Dict Json :=
  match dict? (Dict.get? m (lit "params")) with
  | none => []
  | some params =>
    match dict? (Dict.get? params (lit "message")) with
    | none => []
    | some _ => itemsOf (Dict.get? params (lit "metadata"))

/-- The metadata that `attach_ca2a_metadata` writes into. -/
def innerMetadata (m : Dict Json) : Dict Json :=
  match dict? (Dict.get? m (lit "params")) with
  | none => itemsOf (Dict.get? m (lit "metadata"))
  | some params =>
    match dict? (Dict.get? params (lit "message")) with
    | none => itemsOf (Dict.get? params (lit "metadata"))
    | some msg => itemsOf (Dict.get? msg (lit "metadata"))

/-- Nothing differs but the metadata, and of it only cA2A keys. -/
def MetadataFrame (container container' : Dict Json) : Prop :=
  Dict.erase container' (lit "metadata") = Dict.erase container (lit "metadata") ∧
    ∃ metadata', Dict.get? container' (lit "metadata") = some (.obj metadata') ∧
      ∀ k ∉ ca2aMetadataKeys, Dict.get? metadata' k = Dict.get? (itemsOf (Dict.get? container (lit "metadata"))) k

/-- Nothing of the message differs outside the cA2A keys of the map that was written. -/
def AttachFrame (m out : Dict Json) : Prop :=
  match dict? (Dict.get? m (lit "params")) with
  | none => MetadataFrame m out
  | some params => Dict.erase out (lit "params") = Dict.erase m (lit "params") ∧
    ∃ params', Dict.get? out (lit "params") = some (.obj params') ∧
      match dict? (Dict.get? params (lit "message")) with
      | none => MetadataFrame params params'
      | some msg => Dict.erase params' (lit "message") = Dict.erase params (lit "message") ∧
        ∃ msg', Dict.get? params' (lit "message") = some (.obj msg') ∧ MetadataFrame msg msg'

theorem wf_of_get? {d : Dict Json} {k : Str} {v : Json} (hd : (Json.obj d).WF) (h : Dict.get? d k = some v) : v.WF :=
  (Json.wf_obj.mp hd).2 (k, v) (Dict.get?_mem h)

theorem wf_of_dict? {d e : Dict Json} {k : Str} (hd : (Json.obj d).WF) (h : dict? (Dict.get? d k) = some e) :
    (Json.obj e).WF :=
  wf_of_get? hd (dict?_eq_some_iff.mp h)

theorem keys_itemsOf_nodup {d : Dict Json} (hd : (Json.obj d).WF) (k : Str) :
    (Dict.keys (itemsOf (Dict.get? d k))).Nodup := by
  unfold itemsOf
  split
  · rename_i e he
    exact (Json.wf_obj.mp (wf_of_get? hd he)).1
  · simp [Dict.keys]

/-- The dictionary with its metadata written. -/
def written (write : Dict Json → Dict Json) (container : Dict Json) : Dict Json :=
  Dict.set container (lit "metadata") (.obj (write (itemsOf (Dict.get? container (lit "metadata")))))

theorem writeMetadata_ok {container out : Dict Json} {write : Dict Json → Dict Json}
    (h : writeMetadata container write = .ok out) : out = written write container := by
  unfold written
  unfold writeMetadata at h
  split at h
  · rename_i hnone
    cases h
    rw [hnone]
    rfl
  · rename_i metadata hsome
    cases h
    rw [hsome]
    rfl
  · cases h

/-- The message with the metadata written where it is attached. -/
def attached (write : Dict Json → Dict Json) (m : Dict Json) : Dict Json :=
  match dict? (Dict.get? m (lit "params")) with
  | none => written write m
  | some params =>
    match dict? (Dict.get? params (lit "message")) with
    | none => Dict.set m (lit "params") (.obj (written write params))
    | some msg => Dict.set m (lit "params") (.obj (Dict.set params (lit "message") (.obj (written write msg))))

theorem attachTarget_ok {m out : Dict Json} {write : Dict Json → Dict Json} (h : attachTarget m write = .ok out) :
    out = attached write m := by
  rw [attachTarget_eq] at h
  rw [attached]
  cases hparams : dict? (Dict.get? m (lit "params")) with
  | none =>
    rw [hparams] at h
    exact writeMetadata_ok h
  | some params =>
    simp only [hparams] at h ⊢
    cases hmsg : dict? (Dict.get? params (lit "message")) with
    | none =>
      simp only [hmsg, bind_ok_iff, Except.ok.injEq] at h
      obtain ⟨params', hparams', rfl⟩ := h
      rw [writeMetadata_ok hparams']
    | some msg =>
      simp only [hmsg, bind_ok_iff, Except.ok.injEq] at h
      obtain ⟨msg', hmsg', rfl⟩ := h
      rw [writeMetadata_ok hmsg']

/-- What is read after a write: the map that was written, and beside it the one of `params`. -/
theorem get?_collectMetadata_attachTarget {m out : Dict Json} {write : Dict Json → Dict Json} (hm : (Json.obj m).WF)
    (hw : ∀ d, (Dict.keys d).Nodup → (Dict.keys (write d)).Nodup) (h : attachTarget m write = .ok out) (k : Str) :
    Dict.get? (collectMetadata out) k =
      (Dict.get? (write (innerMetadata m)) k).or (Dict.get? (outerMetadata m) k) := by
  rw [attachTarget_ok h, innerMetadata, outerMetadata, collectMetadata_eq, attached]
  cases hparams : dict? (Dict.get? m (lit "params")) with
  | none =>
    have hnd := hw _ (keys_itemsOf_nodup hm (lit "metadata"))
    simp only [written, Dict.get?_set_self, Dict.get?_set_other _ _ (show lit "params" ≠ lit "metadata" by simp), hparams,
      itemsOf_obj, Dict.get?_update hnd]
  | some params =>
    have hwf := wf_of_dict? hm hparams
    cases hmsg : dict? (Dict.get? params (lit "message")) with
    | none =>
      have hnd := hw _ (keys_itemsOf_nodup hwf (lit "metadata"))
      simp only [written, Dict.get?_set_self, dict?_obj, Dict.get?_set_other _ _ (show lit "message" ≠ lit "metadata" by simp),
        hmsg, itemsOf_obj, Dict.get?_update hnd]
    | some msg =>
      have hnd := hw _ (keys_itemsOf_nodup (wf_of_dict? hwf hmsg) (lit "metadata"))
      simp only [written, Dict.get?_set_self, dict?_obj, Dict.get?_set_other _ _ (show lit "metadata" ≠ lit "message" by simp),
        itemsOf_obj, Dict.get?_update hnd, Dict.get?_update (keys_itemsOf_nodup hwf (lit "metadata")), Dict.get?_nil,
        Option.or_none, hmsg]

theorem metadataFrame_write (r : PeerRequest) (container : Dict Json) :
    MetadataFrame container (written (writeFields r) container) := by
  refine ⟨Dict.erase_set_self _ _ _, _, Dict.get?_set_self _ _ _, fun k hk => ?_⟩
  rw [get?_writeFields, Dict.get?_eq_none_iff.mpr (by rwa [keys_fieldsOf])]
  rfl

/-- Attaching changes nothing else. -/
theorem attachFrame_of_attach {m out : Dict Json} {r : PeerRequest} (h : attachCa2aMetadata m r = .ok out) :
    AttachFrame m out := by
  rw [attachCa2aMetadata] at h
  rw [attachTarget_ok h, AttachFrame, attached]
  cases hparams : dict? (Dict.get? m (lit "params")) with
  | none => exact metadataFrame_write r m
  | some params =>
    cases hmsg : dict? (Dict.get? params (lit "message")) with
    | none =>
      simp only [hmsg]
      refine ⟨Dict.erase_set_self _ _ _, _, Dict.get?_set_self _ _ _, ?_⟩
      exact metadataFrame_write r params
    | some msg =>
      simp only [hmsg]
      refine ⟨Dict.erase_set_self _ _ _, _, Dict.get?_set_self _ _ _, ?_⟩
      exact ⟨Dict.erase_set_self _ _ _, _, Dict.get?_set_self _ _ _, metadataFrame_write r msg⟩

/-! ## The round trip -/

/-- The fields of the request are ones the parser can return; the chain may be empty. -/
structure PeerRequest.WireValid (r : PeerRequest) : Prop where
  chain : ∀ c ∈ r.chain, c.WireValid
  requestedCapability : r.requestedCapability ≠ []
  recordId : r.recordId ≠ []
  sealedPayload : r.sealedPayload ≠ some []
  callerOffer : ∀ offer ∈ r.callerOffer, offer.WireValid
  holderProof : ∀ proof ∈ r.holderProof, proof.challenge ≠ [] ∧ proof.signature ≠ []
  callerPossession : ∀ possession ∈ r.callerPossession, possession.version ≠ [] ∧ possession.mac ≠ []

/-- The optional keys that the request leaves out. -/
def leftOut (r : PeerRequest) : List Str :=
  (if r.sealedPayload = none then [keySealedPayload] else []) ++ (if r.callerOffer = none then [keyCallerOffer] else []) ++
    (if r.holderProof = none then [keyHolderProof] else []) ++
    (if r.callerPossession = none then [keyCallerPossession] else [])

/-- The metadata of `params` holds a value under a key that the request leaves out, beside a message that has
its own. -/
def Stale (m : Dict Json) (r : PeerRequest) : Prop :=
  ∃ key ∈ leftOut r, ∃ value, Dict.get? (outerMetadata m) key = some value ∧ value ≠ .null

/-- Nothing stands where a field that is left out is read. -/
def Unshadowed {α : Type} (o : Option α) (other : Option Json) : Prop := o = none → ∀ v, other = some v → v = .null

section
variable [Interp]

omit [Interp] in
/-- A field that is left out reads as absent exactly when nothing else stands under its key. -/
theorem optionalField_or_ok_iff {α : Type} {parse : Json → Result α} {write : α → Json} {o : Option α}
    {other : Option Json} (hp : ∀ a ∈ o, parse (write a) = .ok a) (hw : ∀ a, write a ≠ .null) :
    optionalField ((o.map write).or other) parse = .ok o ↔ Unshadowed o other := by
  rw [Unshadowed]
  cases o with
  | none =>
    simp only [Option.map_none, Option.none_or, forall_const]
    cases other with
    | none => simp [optionalField]
    | some v =>
      by_cases hv : v = .null
      · simp [hv, optionalField]
      · have hopt : optionalField (some v) parse = parse v >>= fun a => .ok (some a) := by
          cases v <;> first | rfl | exact absurd rfl hv
        simp [hopt, bind_ok_iff, hv]
  | some a =>
    have hopt : optionalField (some (write a)) parse = parse (write a) >>= fun a => .ok (some a) := by
      have hne := hw a
      generalize write a = v at hne
      cases v <;> first | rfl | exact absurd rfl hne
    simp [hopt, hp a rfl]

theorem sealedField_b64urlEncode {b : Bytes} (h : b ≠ []) : sealedField (.str (b64urlEncode b)) = .ok b :=
  b64urlDecode_b64urlEncode _ h

omit [Interp] in
theorem possessionField_toDict {p : CallerPossession} (h : p.version ≠ [] ∧ p.mac ≠ []) :
    possessionField (.obj p.toDict) = .ok p := by
  rw [possessionField, CallerPossession.fromDict_toDict h.1 h.2]
  rfl

omit [Interp] in
theorem requiredText_str {message : String} {s : Str} (h : s ≠ []) : requiredText message (some (.str s)) = .ok s := by
  cases s with
  | nil => exact absurd rfl h
  | cons c s => rfl

omit [Interp] in
/-- What the parser finds under each key after a write. -/
theorem get?_collectMetadata_attach {m : JsonDict} {r : PeerRequest} {out : Dict Json}
    (h : attachCa2aMetadata m.items r = .ok out) {k : Str} {o : Option Json} (hk : Dict.get? (fieldsOf r) k = some o) :
    Dict.get? (collectMetadata out) k = o.or (Dict.get? (outerMetadata m.items) k) := by
  have hnodup : ∀ d, (Dict.keys d).Nodup → (Dict.keys (writeFields r d)).Nodup := fun d hd =>
    keys_putFields_nodup (fieldsOf r) hd
  rw [get?_collectMetadata_attachTarget m.wf hnodup h, get?_writeFields, hk]
  rfl

omit [Interp] in
/-- An optional field comes back exactly when it is there or nothing shadows its absence. -/
theorem optionalField_attach {m : JsonDict} {r : PeerRequest} {out : Dict Json}
    (h : attachCa2aMetadata m.items r = .ok out) {α : Type} {parse : Json → Result α} {write : α → Json} {o : Option α}
    {k : Str} (hk : Dict.get? (fieldsOf r) k = some (o.map write)) (hp : ∀ a ∈ o, parse (write a) = .ok a)
    (hw : ∀ a, write a ≠ .null) :
    optionalField (Dict.get? (collectMetadata out) k) parse = .ok o ↔
      Unshadowed o (Dict.get? (outerMetadata m.items) k) := by
  rw [get?_collectMetadata_attach h hk]
  exact optionalField_or_ok_iff hp hw

omit [Interp] in
theorem not_stale_iff {m : Dict Json} {r : PeerRequest} :
    ¬ Stale m r ↔
      Unshadowed r.sealedPayload (Dict.get? (outerMetadata m) keySealedPayload) ∧
      Unshadowed r.callerOffer (Dict.get? (outerMetadata m) keyCallerOffer) ∧
      Unshadowed r.holderProof (Dict.get? (outerMetadata m) keyHolderProof) ∧
      Unshadowed r.callerPossession (Dict.get? (outerMetadata m) keyCallerPossession) := by
  simp only [Stale, leftOut, List.mem_append, List.mem_ite_nil_right, List.mem_singleton, or_assoc, not_exists, not_and,
    not_not, Unshadowed]
  constructor
  · intro h
    exact ⟨fun hn => h _ (.inl ⟨hn, rfl⟩), fun hn => h _ (.inr (.inl ⟨hn, rfl⟩)),
      fun hn => h _ (.inr (.inr (.inl ⟨hn, rfl⟩))), fun hn => h _ (.inr (.inr (.inr ⟨hn, rfl⟩)))⟩
  · intro ⟨hsealed, hoffer, hproof, hpossession⟩ key hkey
    rcases hkey with ⟨hn, rfl⟩ | ⟨hn, rfl⟩ | ⟨hn, rfl⟩ | ⟨hn, rfl⟩
    · exact hsealed hn
    · exact hoffer hn
    · exact hproof hn
    · exact hpossession hn

theorem chainField_credentialToDict {chain : List DelegationCredential} (h : ∀ c ∈ chain, c.WireValid) :
    chainField (some (.arr (chain.map fun c => .obj (credentialToDict c)))) = .ok chain ↔ chain ≠ [] := by
  cases chain with
  | nil => simp [chainField]
  | cons c chain =>
    have hhops := parseHops_credentialToDict h 0
    rw [List.map_cons] at hhops ⊢
    simp [chainField, hhops]

omit [Interp] in
theorem parentHashField_optStr (o : Option Str) : parentHashField (some (optStr o)) = .ok o := by
  cases o <;> rfl

omit [Interp] in
/-- The fields of a request under their keys. -/
theorem get?_fieldsOf (r : PeerRequest) :
    Dict.get? (fieldsOf r) keyDelegationChain = some (some (.arr (r.chain.map fun c => .obj (credentialToDict c)))) ∧
    Dict.get? (fieldsOf r) keyRequestedCapability = some (some (.str r.requestedCapability)) ∧
    Dict.get? (fieldsOf r) keyRecordId = some (some (.str r.recordId)) ∧
    Dict.get? (fieldsOf r) keyParentRecordHash = some (some (optStr r.parentRecordHash)) ∧
    Dict.get? (fieldsOf r) keySealedPayload = some (r.sealedPayload.map fun b => .str (b64urlEncode b)) ∧
    Dict.get? (fieldsOf r) keyCallerOffer = some (r.callerOffer.map fun o => .obj (serializeChannelOffer o)) ∧
    Dict.get? (fieldsOf r) keyHolderProof = some (r.holderProof.map fun p => .obj p.toDict) ∧
    Dict.get? (fieldsOf r) keyCallerPossession = some (r.callerPossession.map fun p => .obj p.toDict) := by
  simp [fieldsOf, Dict.get?_cons, keyDelegationChain, keyRequestedCapability, keyRecordId, keyParentRecordHash,
    keySealedPayload, keyCallerOffer, keyHolderProof, keyCallerPossession]

/-- **When attach and parse are inverse.** -/
theorem parse_attach_iff {m : JsonDict} {r : PeerRequest} (hr : r.WireValid) {out : Dict Json}
    (h : attachCa2aMetadata m.items r = .ok out) :
    parsePeerRequest out = .ok (some r) ↔ r.chain ≠ [] ∧ ¬ Stale m.items r := by
  obtain ⟨hchain, hcapability, hrecord, hparent, hsealed, hoffer, hproof, hpossession⟩ := get?_fieldsOf r
  have hread := fun k o => @get?_collectMetadata_attach m r out h k o
  have hhas : hasCa2aMetadata (collectMetadata out) = true := by
    simp [hasCa2aMetadata, ca2aMetadataKeys, Dict.has, hread _ _ hchain]
  have hsealed' := optionalField_attach h hsealed
    (fun b hb => sealedField_b64urlEncode fun he => hr.sealedPayload (by rw [Option.mem_def.mp hb, he])) fun b => by simp
  have hoffer' := optionalField_attach h hoffer (fun o ho => parseChannelOffer_serialize (hr.callerOffer o ho) none)
    fun b => by simp
  have hproof' := optionalField_attach h hproof
    (fun p hp => HolderProof.fromDict_toDict (hr.holderProof p hp).1 (hr.holderProof p hp).2) fun b => by simp
  have hpossession' := optionalField_attach h hpossession
    (fun p hp => possessionField_toDict (hr.callerPossession p hp)) fun b => by simp
  have hc := chainField_credentialToDict hr.chain
  rw [not_stale_iff, ← hsealed', ← hoffer', ← hproof', ← hpossession', ← hc, parsePeerRequest]
  simp only [hhas, Bool.true_eq_false, if_false, hread _ _ hchain, hread _ _ hcapability, hread _ _ hrecord,
    hread _ _ hparent, Option.some_or, requiredText_str hr.requestedCapability, requiredText_str hr.recordId,
    parentHashField_optStr, ok_bind, bind_ok_iff, Except.ok.injEq, Option.some.injEq]
  constructor
  · rintro ⟨chain, hchain, payload, hpayload, offer, hoffer, possession, hpossession, proof, hproof, hres⟩
    obtain rfl : chain = r.chain := congrArg (·.chain) hres
    obtain rfl : payload = r.sealedPayload := congrArg (·.sealedPayload) hres
    obtain rfl : offer = r.callerOffer := congrArg (·.callerOffer) hres
    obtain rfl : possession = r.callerPossession := congrArg (·.callerPossession) hres
    obtain rfl : proof = r.holderProof := congrArg (·.holderProof) hres
    exact ⟨hchain, hpayload, hoffer, hproof, hpossession⟩
  · rintro ⟨hchain, hpayload, hoffer, hproof, hpossession⟩
    exact ⟨_, hchain, _, hpayload, _, hoffer, _, hpossession, _, hproof, rfl⟩

/-- **Attach, then parse.** The request comes back exactly when it has a chain and no key that it leaves out
survives at the other level; nothing else of the message changes in any case. -/
theorem attach_roundTrip_iff (m : JsonDict) (r : PeerRequest) (hr : r.WireValid) (out : Dict Json)
    (h : attachCa2aMetadata m.items r = .ok out) :
    (parsePeerRequest out = .ok (some r) ∧ AttachFrame m.items out) ↔ r.chain ≠ [] ∧ ¬ Stale m.items r := by
  rw [parse_attach_iff hr h]
  exact ⟨fun h => h.1, fun hc => ⟨hc, attachFrame_of_attach h⟩⟩

end

/-- A request to read under `wireGrant`, with nothing optional. -/
def plainRequest : PeerRequest := { chain := [wireGrant], requestedCapability := lit "read", recordId := lit "r0" }

theorem plainRequest_wireValid : plainRequest.WireValid where
  chain := by
    intro c hc
    rw [List.mem_singleton.mp hc]
    exact ⟨by decide, by decide, by decide, by decide, by decide, by decide, by decide +kernel⟩
  requestedCapability := by decide
  recordId := by decide
  sealedPayload := by decide
  callerOffer := by simp [plainRequest]
  holderProof := by simp [plainRequest]
  callerPossession := by simp [plainRequest]

/-- A request under a delegation, with a payload and a proof. -/
def delegatedRequest : PeerRequest where
  chain := [wireGrant, wireDelegation]
  requestedCapability := lit "read"
  recordId := lit "r1"
  sealedPayload := some [1, 2, 3]
  parentRecordHash := some (lit "sha256:00")
  holderProof := some ⟨lit "challenge", lit "signature"⟩

theorem delegatedRequest_wireValid : delegatedRequest.WireValid where
  chain := by
    intro c hc
    rcases List.mem_pair.mp hc with rfl | rfl
    · exact ⟨by decide, by decide, by decide, by decide, by decide, by decide, by decide +kernel⟩
    · exact ⟨by decide, by decide, by decide, by decide, by decide, by decide, by decide +kernel⟩
  requestedCapability := by decide
  recordId := by decide
  sealedPayload := by decide
  callerOffer := by simp [delegatedRequest]
  holderProof := by
    intro proof hproof
    obtain rfl : proof = ⟨lit "challenge", lit "signature"⟩ := (Option.some.inj hproof).symm
    exact ⟨by decide, by decide⟩
  callerPossession := by simp [delegatedRequest]

/-- Items whose metadata, at both levels, hold what an earlier request and others wrote. -/
def usedItems : Dict Json :=
  [(lit "id", .int 7),
    (lit "params", .obj
      [(lit "metadata", .obj [(lit "trace", .str (lit "t")), (keySealedPayload, .str (lit "AA"))]),
        (lit "message", .obj
          [(lit "role", .str (lit "user")),
            (lit "metadata", .obj [(keyRecordId, .str (lit "r0")), (keyCallerOffer, .null), (lit "note", .int 1)])])])]

theorem usedItems_wf : (Json.obj usedItems).WF := by
  have hkeys : lit "trace" ≠ keySealedPayload ∧ lit "note" ≠ keyRecordId ∧ lit "note" ≠ keyCallerOffer ∧
      keyRecordId ≠ keyCallerOffer := by decide
  simp [usedItems, Dict.keys, hkeys, hkeys.2.1.symm, hkeys.2.2.1.symm]

/-- An envelope that was used before. -/
def usedEnvelope : JsonDict := ⟨usedItems, usedItems_wf⟩

/-- The request comes back from the envelope, and the rest of it stays. -/
theorem roundTrip_delegatedRequest :
    let _ := Interp.ascii
    ∃ out, attachCa2aMetadata usedEnvelope.items delegatedRequest = .ok out ∧
      parsePeerRequest out = .ok (some delegatedRequest) ∧ AttachFrame usedEnvelope.items out := by
  intro _
  have hattach : ∃ out, attachCa2aMetadata usedEnvelope.items delegatedRequest = .ok out := by
    simp [attachCa2aMetadata, attachTarget, usedEnvelope, usedItems, Dict.get?_cons, writeMetadata]
  obtain ⟨out, hout⟩ := hattach
  refine ⟨out, hout, (attach_roundTrip_iff usedEnvelope delegatedRequest delegatedRequest_wireValid out hout).mpr
    ⟨by decide, fun hstale => ?_⟩⟩
  obtain ⟨key, hkey, value, hvalue, _⟩ := hstale
  have houter : outerMetadata usedEnvelope.items = [(lit "trace", .str (lit "t")), (keySealedPayload, .str (lit "AA"))] := by
    simp [outerMetadata, usedEnvelope, usedItems, Dict.get?_cons]
  have hleft : key = keyCallerOffer ∨ key = keyCallerPossession := by simpa [leftOut, delegatedRequest] using hkey
  rw [houter] at hvalue
  have hnone : Dict.get? [(lit "trace", Json.str (lit "t")), (keySealedPayload, .str (lit "AA"))] key = none := by
    rcases hleft with rfl | rfl <;> rfl
  rw [hnone] at hvalue
  cases hvalue

/-- An envelope whose `params` still hold the payload of an earlier request. -/
def staleEnvelope : JsonDict where
  items := [(lit "params", .obj [(lit "metadata", .obj [(keySealedPayload, .str (lit "AA"))]), (lit "message", .obj [])])]
  wf := by simp [Dict.keys]

/-- The payload of the earlier request is read as part of one that has none. -/
theorem stale_payload_survives :
    let _ := Interp.ascii
    plainRequest.WireValid ∧ ∃ out, attachCa2aMetadata staleEnvelope.items plainRequest = .ok out ∧
      parsePeerRequest out ≠ .ok (some plainRequest) := by
  intro _
  have hattach : ∃ out, attachCa2aMetadata staleEnvelope.items plainRequest = .ok out := by
    simp [attachCa2aMetadata, attachTarget, staleEnvelope, Dict.get?_cons, writeMetadata]
  obtain ⟨out, hout⟩ := hattach
  refine ⟨plainRequest_wireValid, out, hout, fun h => ?_⟩
  refine ((parse_attach_iff plainRequest_wireValid hout).mp h).2 ⟨keySealedPayload, ?_, .str (lit "AA"), ?_, by simp⟩
  · simp [leftOut, plainRequest]
  · simp [outerMetadata, staleEnvelope, Dict.get?_cons]

end Ca2a
