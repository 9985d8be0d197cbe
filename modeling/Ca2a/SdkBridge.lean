/-
`ca2a_runtime.transport.a2a_sdk`: a request on a message of the SDK.

The metadata of a message is a `Struct`, which has no integers. Of what the
adapter writes only three fields of a credential are integers, and reading a
message makes them integers again; what is not integral stays a float, which
the parser refuses. So the adapter parses what it wrote (`parse_attachToSdk`).
-/
import Ca2a.Protobuf
import Ca2a.WireForms

namespace Ca2a

open Py

/-- A `Message` of the SDK: `F` is what the bridge does not look into. An object that is not a message
may lack `metadata` or `extensions`. -/
structure SdkMessage (F : Type) where
  fields : F
  metadata : Option Struct
  extensions : Option (List Str)

/-- `int(f)` when `f.is_integer()` -/
def integer? : PyFloat → Option Int
  | .finite q => if q.den = 1 then some q.num else none
  | .negZero => some 0
  | .nan | .inf _ => none

/-- One iteration of the inner loop of `metadata_from_sdk_message`. -/
def restoreField (credential : Dict Json) (field : Str) : Dict Json :=
  match Dict.get? credential field with
  | some (.float f) =>
    match integer? f with
    | some i => Dict.set credential field (.int i)
    | none => credential
  | _ => credential

/-- The fields of a credential that are integers. -/
def integerFields : List Str := [lit "depth", lit "not_before", lit "not_after"]

/-- One iteration of the outer loop of `metadata_from_sdk_message`. -/
def restoreHop : Json → Json
  | .obj credential => .obj (integerFields.foldl restoreField credential)
  | hop => hop

/-- The loops of `metadata_from_sdk_message`. -/
def restoreChain (metadata : Dict Json) : Dict Json :=
  match Dict.get? metadata keyDelegationChain with
  | some (.arr chain) => Dict.set metadata keyDelegationChain (.arr (chain.map restoreHop))
  | _ => metadata

theorem wf_restoreField {d : Dict Json} (h : (Json.obj d).WF) (field : Str) : (Json.obj (restoreField d field)).WF := by
  unfold restoreField
  split
  · split
    · exact h.set _ (Json.wf_int _)
    · exact h
  · exact h

theorem wf_restoreHop {hop : Json} (h : hop.WF) : (restoreHop hop).WF := by
  unfold restoreHop
  split
  · exact wf_restoreField (wf_restoreField (wf_restoreField h _) _) _
  · exact h

theorem wf_restoreChain {metadata : Dict Json} (h : (Json.obj metadata).WF) : (Json.obj (restoreChain metadata)).WF := by
  unfold restoreChain
  split
  · rename_i chain hchain
    have hhops := Json.wf_arr.mp (wf_of_get? h hchain)
    refine h.set _ (Json.wf_arr.mpr fun hop hhop => ?_)
    obtain ⟨hop', hhop', rfl⟩ := List.mem_map.mp hhop
    exact wf_restoreHop (hhops hop' hhop')
  · exact h

theorem wf_empty : (Json.obj []).WF := Json.wf_obj.mpr ⟨List.nodup_nil, fun _ h => absurd h List.not_mem_nil⟩

section
variable {F : Type}

/-- `metadata_from_sdk_message` -/
def metadataFromSdkMessage (message : SdkMessage F) : Result JsonDict :=
  match message.metadata with
  | none => .ok ⟨[], wf_empty⟩
  | some metadata => do
    let result ← messageToDict metadata
    .ok ⟨restoreChain result.items, wf_restoreChain result.wf⟩

/-- `{"metadata": metadata}` -/
def wrapMetadata (metadata : Dict Json) : Dict Json := [(lit "metadata", .obj metadata)]

theorem attach_wrapMetadata (metadata : Dict Json) (request : PeerRequest) :
    attachCa2aMetadata (wrapMetadata metadata) request = .ok (wrapMetadata (writeFields request metadata)) := rfl

section
variable [Interp]

/-- `parse_sdk_message` -/
def parseSdkMessage (message : SdkMessage F) : Result (Option PeerRequest) := do
  let metadata ← metadataFromSdkMessage message
  parsePeerRequest (wrapMetadata metadata.items)

omit [Interp] in
theorem wf_merged {metadata out : Dict Json} {request : PeerRequest} (hwf : (Json.obj metadata).WF)
    (h : attachCa2aMetadata (wrapMetadata metadata) request = .ok out) :
    (Json.obj (itemsOf (Dict.get? out (lit "metadata")))).WF := by
  cases h.symm.trans (attach_wrapMetadata metadata request)
  exact wf_writeFields request hwf

/-- `attach_ca2a_metadata({"metadata": metadata}, request)["metadata"]` -/
def mergedMetadata (metadata : JsonDict) (request : PeerRequest) : Result JsonDict :=
  match h : attachCa2aMetadata (wrapMetadata metadata.items) request with
  | .ok out => .ok ⟨itemsOf (Dict.get? out (lit "metadata")), wf_merged metadata.wf h⟩
  | .error e => .error e

omit [Interp] in
/-- `if EXTENSION_URI not in extensions: extensions.append(EXTENSION_URI)` -/
def appendExtension (extensions : List Str) : List Str :=
  if extensions.any fun uri => uri = extensionUri then extensions else extensions ++ [extensionUri]

omit [Interp] in
theorem appendExtension_eq (extensions : List Str) :
    (extensionUri ∈ extensions ∧ appendExtension extensions = extensions) ∨
      extensionUri ∉ extensions ∧ appendExtension extensions = extensions ++ [extensionUri] := by
  by_cases hmem : extensionUri ∈ extensions
  · exact .inl ⟨hmem, if_pos (by simpa using hmem)⟩
  · exact .inr ⟨hmem, if_neg (by simpa using hmem)⟩

omit [Interp] in
/-- The message after `message.metadata` was filled. -/
def SdkMessage.attached (message : SdkMessage F) (metadata : Struct) : SdkMessage F :=
  { message with metadata := some metadata, extensions := message.extensions.map appendExtension }

/-- `attach_to_sdk_message`. The message it returns is the one it was given. -/
def attachToSdkMessage (double : Int → Result PyFloat) (message : SdkMessage F) (request : PeerRequest) :
    Result (SdkMessage F) := do
  let metadata ← metadataFromSdkMessage message
  let merged ← mergedMetadata metadata request
  match message.metadata with
  | none => .error (.builtin .attributeError (lit "'NoneType' object has no attribute 'Clear'"))
  | some _ => do
    let metadata ← parseDict double merged
    .ok (message.attached metadata)

end

theorem mergedMetadata_eq (metadata : JsonDict) (request : PeerRequest) :
    mergedMetadata metadata request =
      .ok ⟨writeFields request metadata.items, wf_writeFields request metadata.wf⟩ := rfl

end

/-! ## A chain through a `Struct` -/

@[simp] theorem integer?_intCast (i : Int) : integer? (.finite i) = some i := by
  simp [integer?]

@[simp] theorem integer?_natCast (n : Nat) : integer? (.finite n) = some (n : Int) := integer?_intCast n

theorem noInt_str (s : Str) : NoInt (.str s) := trivial

theorem noInt_strArr (l : List Str) : NoInt (strArr l) := by
  rw [strArr, noInt_arr]
  intro x hx
  obtain ⟨s, _, rfl⟩ := List.mem_map.mp hx
  exact trivial

theorem noInt_optStr (o : Option Str) : NoInt (optStr o) := by
  cases o <;> exact trivial

/-- A credential read back from a `Struct` has its integers again. -/
theorem restoreHop_floats (c : DelegationCredential) :
    restoreHop (floats (.obj (credentialToDict c))) = .obj (credentialToDict c) := by
  have hscope : floats (strArr (sortedStrs c.scope)) = strArr (sortedStrs c.scope) := floats_of_noInt (noInt_strArr _)
  have hparent : floats (optStr c.parentId) = optStr c.parentId := floats_of_noInt (noInt_optStr _)
  rw [floats_obj, restoreHop, credentialToDict_eq]
  cases c.notBefore <;> cases c.notAfter <;>
    simp [optField, integerFields, restoreField, Dict.get?_cons, Dict.set, hscope, hparent, floats]

/-! ## What the adapter writes -/

/-- The texts of the offer can be encoded. -/
structure ChannelOffer.Encodable (offer : ChannelOffer) : Prop where
  channelPublicKey : Clean offer.channelPublicKey
  platform : Clean offer.report.platform
  measurement : Clean offer.report.measurement
  publicKey : Clean offer.report.publicKey
  nonce : Clean offer.report.nonce

/-- The texts of the request can be encoded, and its credentials could be signed. -/
structure PeerRequest.Encodable (r : PeerRequest) : Prop where
  chain : ∀ c ∈ r.chain, Canonical c.body
  requestedCapability : Clean r.requestedCapability
  recordId : Clean r.recordId
  parentRecordHash : ∀ s ∈ r.parentRecordHash, Clean s
  callerOffer : ∀ offer ∈ r.callerOffer, offer.Encodable
  holderProof : ∀ proof ∈ r.holderProof, Clean proof.challenge ∧ Clean proof.signature
  callerPossession : ∀ possession ∈ r.callerPossession, Clean possession.version ∧ Clean possession.mac

theorem clean_b64urlEncode (b : Bytes) : Clean (b64urlEncode b) := by
  have hchar : ∀ n : Fin 64, (b64Char n).val < 0x80 := by decide +kernel
  refine clean_of_ascii fun c hc => ?_
  obtain ⟨n, hn, rfl⟩ := List.mem_map.mp hc
  exact hchar ⟨n, b64Digits_lt b n hn⟩

theorem canonical_credentialToDict {c : DelegationCredential} (hbody : Canonical c.body) (hc : c.WireValid) :
    Canonical (.obj (credentialToDict c)) := by
  have heq : credentialToDict c = itemsOf (some c.body) ++ [(lit "signature", .str c.signature)] := credentialToDict_eq c
  have hitems : Canonical (.obj (itemsOf (some c.body))) := hbody
  rw [heq, canonical_obj]
  rw [canonical_obj] at hitems
  intro kv hkv
  rcases List.mem_append.mp hkv with hkv | hkv
  · exact hitems kv hkv
  · rw [List.mem_singleton.mp hkv]
    exact ⟨clean_lit _, canonical_str.mpr (clean_of_isLowerHex hc.signature)⟩

theorem clean_role {role : Str} (h : role ∈ roles) : Clean role := by
  simp only [roles, Finset.mem_insert, Finset.mem_singleton] at h
  rcases h with rfl | rfl <;> exact clean_lit _

/-- The fields of a report are texts. -/
theorem attestationItems_texts {offer : ChannelOffer} (h : offer.Encodable) (hrole : Clean offer.report.role) :
    ∀ kv ∈ attestationItems offer.report, Clean kv.1 ∧ ∃ s, kv.2 = .str s ∧ Clean s := by
  obtain ⟨_, hplatform, hmeasurement, hpublic, hnonce⟩ := h
  have hevidence : ∀ field value, ∀ kv ∈ attestationItems.evidence field value, Clean kv.1 ∧ ∃ s, kv.2 = .str s ∧ Clean s := by
    intro field value kv hkv
    obtain ⟨j, hj, rfl⟩ := mem_optField.mp hkv
    obtain ⟨b, _, rfl⟩ := Option.map_eq_some_iff.mp hj
    exact ⟨clean_lit _, _, rfl, clean_b64urlEncode b⟩
  rw [attestationItems]
  simp only [List.forall_mem_append]
  refine ⟨⟨⟨⟨⟨by simp [hplatform, hmeasurement, hpublic, hnonce], fun kv hkv => ?_⟩, hevidence _ _⟩, hevidence _ _⟩,
    hevidence _ _⟩, hevidence _ _⟩
  obtain ⟨j, hj, rfl⟩ := mem_optField.mp hkv
  split at hj <;> cases hj
  exact ⟨clean_lit _, _, rfl, hrole⟩

theorem canonical_serializeChannelOffer {offer : ChannelOffer} (h : offer.Encodable) (hrole : Clean offer.report.role) :
    Canonical (.obj (serializeChannelOffer offer)) ∧ NoInt (.obj (serializeChannelOffer offer)) := by
  have htexts := attestationItems_texts h hrole
  have hcanonical : Canonical (.obj (attestationItems offer.report)) := by
    refine canonical_obj.mpr fun kv hkv => ?_
    obtain ⟨hkey, s, hs, hclean⟩ := htexts kv hkv
    exact ⟨hkey, hs ▸ canonical_str.mpr hclean⟩
  have hnoInt : NoInt (.obj (attestationItems offer.report)) := by
    refine noInt_obj.mpr fun kv hkv => ?_
    obtain ⟨_, s, hs, _⟩ := htexts kv hkv
    exact hs ▸ noInt_str s
  rw [canonical_obj, noInt_obj, serializeChannelOffer]
  constructor
  · simp [h.channelPublicKey, hcanonical, optField]
  · simp [noInt_str, hnoInt, optField]

/-- **What is written can be encoded**, and of it only the chain holds integers. -/
theorem canonical_fieldsOf {r : PeerRequest} (hr : r.WireValid) (h : r.Encodable) {k : Str} {v : Json}
    (hk : Dict.get? (fieldsOf r) k = some (some v)) : Clean k ∧ Canonical v ∧ (k ≠ keyDelegationChain → NoInt v) := by
  have hclean : Clean keyDelegationChain ∧ Clean keyRequestedCapability ∧ Clean keyRecordId ∧ Clean keyParentRecordHash ∧
      Clean keySealedPayload ∧ Clean keyCallerOffer ∧ Clean keyHolderProof ∧ Clean keyCallerPossession := by
    simp [keyDelegationChain, keyRequestedCapability, keyRecordId, keyParentRecordHash, keySealedPayload, keyCallerOffer,
      keyHolderProof, keyCallerPossession, extensionUri]
  have hmem := Dict.get?_mem hk
  simp only [fieldsOf, List.mem_cons, Prod.mk.injEq, List.not_mem_nil, or_false] at hmem
  rcases hmem with ⟨rfl, hv⟩ | ⟨rfl, hv⟩ | ⟨rfl, hv⟩ | ⟨rfl, hv⟩ | ⟨rfl, hv⟩ | ⟨rfl, hv⟩ | ⟨rfl, hv⟩ | ⟨rfl, hv⟩
  · cases hv
    refine ⟨hclean.1, canonical_arr.mpr fun x hx => ?_, fun hne => absurd rfl hne⟩
    obtain ⟨c, hc, rfl⟩ := List.mem_map.mp hx
    exact canonical_credentialToDict (h.chain c hc) (hr.chain c hc)
  · cases hv
    exact ⟨hclean.2.1, canonical_str.mpr h.requestedCapability, fun _ => trivial⟩
  · cases hv
    exact ⟨hclean.2.2.1, canonical_str.mpr h.recordId, fun _ => trivial⟩
  · cases hv
    exact ⟨hclean.2.2.2.1, canonical_optStr.mpr h.parentRecordHash, fun _ => noInt_optStr _⟩
  · obtain ⟨b, _, rfl⟩ := Option.map_eq_some_iff.mp hv.symm
    exact ⟨hclean.2.2.2.2.1, canonical_str.mpr (clean_b64urlEncode b), fun _ => trivial⟩
  · obtain ⟨offer, hoffer, rfl⟩ := Option.map_eq_some_iff.mp hv.symm
    have hrole : Clean offer.report.role := clean_role (hr.callerOffer offer hoffer).role
    have hwritten := canonical_serializeChannelOffer (h.callerOffer offer hoffer) hrole
    exact ⟨hclean.2.2.2.2.2.1, hwritten.1, fun _ => hwritten.2⟩
  · obtain ⟨proof, hproof, rfl⟩ := Option.map_eq_some_iff.mp hv.symm
    have hclean' := h.holderProof proof hproof
    exact ⟨hclean.2.2.2.2.2.2.1, by simp [HolderProof.toDict, hclean'], fun _ => by simp [HolderProof.toDict, noInt_str]⟩
  · obtain ⟨possession, hpossession, rfl⟩ := Option.map_eq_some_iff.mp hv.symm
    have hclean' := h.callerPossession possession hpossession
    exact ⟨hclean.2.2.2.2.2.2.2, by simp [CallerPossession.toDict, hclean'],
      fun _ => by simp [CallerPossession.toDict, noInt_str]⟩

/-! ## Through the metadata of a message -/

theorem NoInt.intsWithin {v : Json} (h : NoInt v) (m : Nat) : v.IntsWithin m :=
  Json.All.mono (fun j hj => by cases j <;> first | exact trivial | exact hj.elim) h

theorem Canonical.finiteFloats {v : Json} (h : Canonical v) : FiniteFloats v :=
  Json.All.mono (fun j hj => by cases j <;> first | exact trivial | exact hj.elim) h.noFloat

theorem Canonical.intsWithin {v : Json} (h : Canonical v) : v.IntsWithin (2 ^ 53) := by
  refine Json.All.mono (fun j hj => ?_) h.ints
  cases j
  case int i => exact le_trans hj (by decide)
  all_goals exact trivial

theorem get?_restoreChain_other {d : Dict Json} {k : Str} (h : k ≠ keyDelegationChain) :
    Dict.get? (restoreChain d) k = Dict.get? d k := by
  unfold restoreChain
  split
  · exact Dict.get?_set_other _ _ h
  · rfl

theorem get?_restoreChain_arr {d : Dict Json} {hops : List Json} (h : Dict.get? d keyDelegationChain = some (.arr hops)) :
    Dict.get? (restoreChain d) keyDelegationChain = some (.arr (hops.map restoreHop)) := by
  rw [restoreChain, h]
  exact Dict.get?_set_self _ _ _

theorem get?_map_values (f : Json → Json) (d : Dict Json) (k : Str) :
    Dict.get? (d.map fun kv => (kv.1, f kv.2)) k = (Dict.get? d k).map f := by
  induction d with
  | nil => rfl
  | cons kv d ih =>
    rw [List.map_cons, Dict.get?_cons, Dict.get?_cons, ih]
    split <;> rfl

/-- The metadata that `attach_to_sdk_message` writes. -/
def merged (r : PeerRequest) (prior : Struct) : Dict Json := writeFields r (restoreChain prior.items)

section
variable {r : PeerRequest} {prior : Struct}

theorem wf_mergedItems (r : PeerRequest) (prior : Struct) : (Json.obj (merged r prior)).WF :=
  wf_writeFields r (wf_restoreChain prior.wf)

/-- Every key is one of the request's or keeps its value: the chain that was restored is written over. -/
theorem get?_merged (r : PeerRequest) (prior : Struct) (k : Str) :
    Dict.get? (merged r prior) k = (Dict.get? (fieldsOf r) k).getD (Dict.get? prior.items k) := by
  rw [merged, get?_writeFields]
  by_cases hk : k = keyDelegationChain
  · rw [hk, (get?_fieldsOf r).1]
    rfl
  · rw [get?_restoreChain_other hk]

/-- **What is written fits into a `Struct`.** -/
theorem merged_fits (hfinite : FiniteFloats (.obj prior.items)) (hr : r.WireValid) (h : r.Encodable) :
    ∀ kv ∈ merged r prior, Clean kv.1 ∧ kv.2.CleanText ∧ kv.2.IntsWithin (2 ^ 53) ∧ FiniteFloats kv.2 := by
  intro kv hkv
  obtain ⟨k, v⟩ := kv
  have hget := Dict.get?_of_mem (Json.wf_obj.mp (wf_mergedItems r prior)).1 hkv
  rw [get?_merged] at hget
  cases hfield : Dict.get? (fieldsOf r) k with
  | none =>
    rw [hfield] at hget
    have hmem := Dict.get?_mem hget
    obtain ⟨hkeys, hvalues⟩ := Json.cleanText_obj.mp prior.clean
    exact ⟨hkeys _ hmem, hvalues _ hmem, NoInt.intsWithin (noInt_obj.mp prior.noInt _ hmem) _,
      finiteFloats_obj.mp hfinite _ hmem⟩
  | some o =>
    rw [hfield] at hget
    obtain rfl : o = some v := hget
    obtain ⟨hkey, hcanonical, _⟩ := canonical_fieldsOf hr h hfield
    exact ⟨hkey, hcanonical.clean, hcanonical.intsWithin, hcanonical.finiteFloats⟩

variable [Interp] {double : Int → Result PyFloat}

theorem parseFields_merged (hdouble : ExactDouble double) (hfinite : FiniteFloats (.obj prior.items)) (hr : r.WireValid)
    (h : r.Encodable) : parseFields double (merged r prior) = .ok ((merged r prior).map fun kv => (kv.1, floats kv.2)) := by
  have hfits := merged_fits hfinite hr h
  have hobj : parseValue double (.obj (merged r prior)) = .ok (floats (.obj (merged r prior))) :=
    parseValue_floats hdouble (Json.cleanText_obj.mpr ⟨fun kv hkv => (hfits kv hkv).1, fun kv hkv => (hfits kv hkv).2.1⟩)
      (Json.intsWithin_obj.mpr fun kv hkv => (hfits kv hkv).2.2.1)
  rw [parseValue, floats_obj, bind_ok_iff] at hobj
  obtain ⟨e, he, heq⟩ := hobj
  cases heq
  exact he

end

section
variable {F : Type} {message : SdkMessage F} {prior : Struct} {r : PeerRequest}

theorem metadataFromSdkMessage_ok (hprior : message.metadata = some prior) (hfinite : FiniteFloats (.obj prior.items)) :
    metadataFromSdkMessage message = .ok ⟨restoreChain prior.items, wf_restoreChain prior.wf⟩ := by
  have hread : messageToDict prior = .ok ⟨prior.items, prior.wf⟩ := messageToDict_ok_iff.mpr ⟨hfinite, rfl⟩
  rw [metadataFromSdkMessage, hprior]
  simp only [hread, ok_bind]

variable [Interp] {double : Int → Result PyFloat}

/-- **Attaching succeeds**, and leaves in the message what it wrote, with floats for integers. -/
theorem attachToSdkMessage_ok (hdouble : ExactDouble double) (hprior : message.metadata = some prior)
    (hfinite : FiniteFloats (.obj prior.items)) (hr : r.WireValid) (h : r.Encodable) :
    ∃ s : Struct, s.items = (merged r prior).map (fun kv => (kv.1, floats kv.2)) ∧ FiniteFloats (.obj s.items) ∧
      attachToSdkMessage double message r = .ok (message.attached s) := by
  have hfields := parseFields_merged hdouble hfinite hr h
  have hobj := struct_of_parseFields (wf_mergedItems r prior) hfields
  refine ⟨⟨_, hobj.1, hobj.2.1, hobj.2.2⟩, rfl, ?_, ?_⟩
  · have hall : FiniteFloats (.obj (merged r prior)) :=
      finiteFloats_obj.mpr fun kv hkv => (merged_fits hfinite hr h kv hkv).2.2.2
    rw [← floats_obj]
    exact finiteFloats_floats hall
  · have hparse : parseDict double ⟨merged r prior, wf_mergedItems r prior⟩ = .ok ⟨_, hobj.1, hobj.2.1, hobj.2.2⟩ :=
      parseDict_ok_iff.mpr hfields
    rw [attachToSdkMessage, metadataFromSdkMessage_ok hprior hfinite, ok_bind, mergedMetadata_eq, ok_bind, hprior]
    simp only
    rw [show (⟨writeFields r (restoreChain prior.items), _⟩ : JsonDict) = ⟨merged r prior, wf_mergedItems r prior⟩ from rfl,
      hparse, ok_bind]

omit [Interp] in
theorem get?_merged_map (r : PeerRequest) (prior : Struct) (k : Str) :
    Dict.get? ((merged r prior).map fun kv => (kv.1, floats kv.2)) k = (Dict.get? (merged r prior) k).map floats :=
  get?_map_values floats _ k

omit [Interp] in
/-- **What is read back under the keys of the request is what was written.** -/
theorem get?_restored (hr : r.WireValid) (h : r.Encodable) (prior : Struct) {k : Str} (hk : k ∈ ca2aMetadataKeys) :
    Dict.get? (restoreChain ((merged r prior).map fun kv => (kv.1, floats kv.2))) k = Dict.get? (merged r prior) k := by
  by_cases hchain : k = keyDelegationChain
  · have hwritten : Dict.get? (merged r prior) k = some (.arr (r.chain.map fun c => .obj (credentialToDict c))) := by
      rw [get?_merged, hchain, (get?_fieldsOf r).1]
      rfl
    have hread := (get?_merged_map r prior k).trans (congrArg (Option.map floats) hwritten)
    rw [Option.map_some, floats_arr, List.map_map] at hread
    rw [hwritten, hchain, get?_restoreChain_arr (hchain ▸ hread), List.map_map]
    refine congrArg (fun hops => some (Json.arr hops)) (List.map_congr_left fun c _ => ?_)
    exact restoreHop_floats c
  · rw [get?_restoreChain_other hchain, get?_merged_map, get?_merged]
    rw [← keys_fieldsOf r] at hk
    cases hfield : Dict.get? (fieldsOf r) k with
    | none => exact absurd hk (Dict.get?_eq_none_iff.mp hfield)
    | some o =>
      cases o with
      | none => rfl
      | some v => exact congrArg some (floats_of_noInt ((canonical_fieldsOf hr h hfield).2.2 hchain))

omit [Interp] in
theorem get?_collectMetadata_wrap {d : Dict Json} (hd : (Dict.keys d).Nodup) (k : Str) :
    Dict.get? (collectMetadata (wrapMetadata d)) k = Dict.get? d k := by
  have hcollect : collectMetadata (wrapMetadata d) = Dict.update [] d := by
    simp [collectMetadata, wrapMetadata, Dict.get?_cons, itemsOf]
  rw [hcollect, Dict.get?_update hd, Dict.get?_nil, Option.or_none]

/-- The parser reads nothing but the keys of a request. -/
theorem parsePeerRequest_congr {d e : Dict Json} (hd : (Dict.keys d).Nodup) (he : (Dict.keys e).Nodup)
    (h : ∀ k ∈ ca2aMetadataKeys, Dict.get? d k = Dict.get? e k) :
    parsePeerRequest (wrapMetadata d) = parsePeerRequest (wrapMetadata e) := by
  simp only [ca2aMetadataKeys, List.forall_mem_cons] at h
  obtain ⟨hchain, hcapability, hrecord, hparent, hsealed, hoffer, hproof, hpossession, _⟩ := h
  simp only [parsePeerRequest, hasCa2aMetadata, ca2aMetadataKeys, List.any_cons, List.any_nil, Dict.has,
    get?_collectMetadata_wrap hd, get?_collectMetadata_wrap he, hchain, hcapability, hrecord, hparent, hsealed, hoffer,
    hproof, hpossession]

theorem parsePeerRequest_merged (hr : r.WireValid) (hchain : r.chain ≠ []) (prior : Struct) :
    parsePeerRequest (wrapMetadata (merged r prior)) = .ok (some r) := by
  have hwf : (Json.obj (wrapMetadata (restoreChain prior.items))).WF := by
    simpa [wrapMetadata, Dict.keys] using wf_restoreChain prior.wf
  have houter : outerMetadata (wrapMetadata (restoreChain prior.items)) = [] := by
    simp [outerMetadata, wrapMetadata, Dict.get?_cons, dict?]
  refine (parse_attach_iff (m := ⟨_, hwf⟩) hr (attach_wrapMetadata _ r)).mpr ⟨hchain, fun hstale => ?_⟩
  obtain ⟨key, _, value, hvalue, _⟩ := hstale
  rw [houter] at hvalue
  cases hvalue

/-- **The request comes back from the message.** -/
theorem parseSdkMessage_attached (hr : r.WireValid) (h : r.Encodable) (hchain : r.chain ≠ []) {s : Struct}
    (hs : s.items = (merged r prior).map fun kv => (kv.1, floats kv.2)) (hfinite : FiniteFloats (.obj s.items))
    (hmessage : message.metadata = some s) : parseSdkMessage message = .ok (some r) := by
  rw [parseSdkMessage, metadataFromSdkMessage_ok hmessage hfinite, ok_bind, ← parsePeerRequest_merged hr hchain prior]
  refine parsePeerRequest_congr (Json.wf_obj.mp (wf_restoreChain s.wf)).1 (Json.wf_obj.mp (wf_mergedItems r prior)).1
    fun k hk => ?_
  have hread := get?_restored hr h prior hk
  rwa [← hs] at hread

/-! ## What is not integral -/

omit [Interp] in
/-- A float that is not integral stays where it is. -/
theorem get?_restoreFields {field : Str} {f : PyFloat} (hf : integer? f = none) (fields : List Str) {d : Dict Json}
    (h : Dict.get? d field = some (.float f)) :
    Dict.get? (fields.foldl restoreField d) field = some (.float f) := by
  induction fields generalizing d with
  | nil => exact h
  | cons other fields ih =>
    refine ih ?_
    by_cases hfield : field = other
    · rw [restoreField, ← hfield, h]
      simp only [hf]
      exact h
    · unfold restoreField
      split
      · split
        · exact (Dict.get?_set_other _ _ hfield).trans h
        · exact h
      · exact h

omit [Interp] in
theorem get?_credentialToDict_ne_float (c : DelegationCredential) (k : Str) (f : PyFloat) :
    Dict.get? (credentialToDict c) k ≠ some (.float f) := by
  intro h
  have hmem := Dict.get?_mem h
  rw [credentialToDict_eq] at hmem
  cases hp : c.parentId <;> simp [mem_optField, strArr, optStr, hp] at hmem

/-- A hop is refused for a field of its own that is a float. -/
theorem fromDict_float {d : Dict Json} {k : Str} {f : PyFloat} (h : Dict.get? d k = some (.float f))
    (hk : k ∈ integerFields) (c : DelegationCredential) : DelegationCredential.fromDict (.obj d) ≠ .ok c := by
  intro hok
  obtain ⟨_, d', hd', hsame⟩ := (DelegationCredential.fromDict_spec (.obj d)).of_ok hok
  cases hd'
  have hscope : k ≠ lit "scope" := by
    intro heq
    rw [heq] at hk
    exact absurd hk (by decide)
  exact get?_credentialToDict_ne_float c k f ((hsame.2 k hscope).symm.trans h)

theorem parseHop_spec (i : Nat) (hop : Json) :
    Spec (parseHop i hop) (fun c => DelegationCredential.fromDict hop = .ok c) (Exc.isClass .transportError) := by
  unfold parseHop
  split
  · rename_i d
    have hspec := DelegationCredential.fromDict_spec (.obj d)
    refine catchClass_spec ?_ fun _ => rfl
    cases hd : DelegationCredential.fromDict (.obj d) with
    | ok c => exact rfl
    | error e => exact .inr (hspec.of_error hd)
  · exact rfl

theorem parseHops_spec (i : Nat) (hops : List Json) :
    Spec (parseHops i hops) (fun _ => ∀ hop ∈ hops, ∃ c, DelegationCredential.fromDict hop = .ok c)
      (Exc.isClass .transportError) := by
  induction hops generalizing i with
  | nil => exact fun hop hhop => absurd hhop List.not_mem_nil
  | cons hop hops ih =>
    refine (parseHop_spec i hop).bind fun c hc => (ih (i + 1)).bind fun _ hrest => ?_
    exact List.forall_mem_cons.mpr ⟨⟨c, hc⟩, hrest⟩

/-- **A depth or a bound that is not integral is refused**, wherever it stands in the chain. -/
theorem parseSdkMessage_nonIntegral (hprior : message.metadata = some prior) (hfinite : FiniteFloats (.obj prior.items))
    {hops : List Json} (hchain : Dict.get? prior.items keyDelegationChain = some (.arr hops)) {d : Dict Json}
    (hhop : .obj d ∈ hops) {field : Str} (hfield : field ∈ integerFields) {f : PyFloat}
    (hget : Dict.get? d field = some (.float f)) (hf : integer? f = none) :
    ∃ e, parseSdkMessage message = .error e ∧ e.isClass .transportError := by
  have hrestored := get?_restoreChain_arr hchain
  have hnodup := (Json.wf_obj.mp (wf_restoreChain prior.wf)).1
  have hhas : hasCa2aMetadata (collectMetadata (wrapMetadata (restoreChain prior.items))) = true := by
    simp [hasCa2aMetadata, ca2aMetadataKeys, Dict.has, get?_collectMetadata_wrap hnodup, hrestored]
  have hread : ∃ e, chainField (some (.arr (hops.map restoreHop))) = .error e ∧ e.isClass .transportError := by
    have hmem : restoreHop (.obj d) ∈ hops.map restoreHop := List.mem_map_of_mem hhop
    cases hmap : hops.map restoreHop with
    | nil =>
      rw [hmap] at hmem
      cases hmem
    | cons hop rest =>
      rw [hmap] at hmem
      rw [chainField]
      cases hparse : parseHops 0 (hop :: rest) with
      | error e => exact ⟨e, rfl, (parseHops_spec 0 _).of_error hparse⟩
      | ok chain =>
        obtain ⟨c, hc⟩ := (parseHops_spec 0 _).of_ok hparse _ hmem
        exact absurd hc (fromDict_float (get?_restoreFields hf integerFields hget) hfield c)
  obtain ⟨e, he, hclass⟩ := hread
  refine ⟨e, ?_, hclass⟩
  rw [parseSdkMessage, metadataFromSdkMessage_ok hprior hfinite, ok_bind, parsePeerRequest]
  simp only [hhas, Bool.true_eq_false, if_false, get?_collectMetadata_wrap hnodup, hrestored, he]
  rfl

/-! ## The bridge -/

/-- The extension's URI is among the extensions, and is added behind them if it was not. An object that has none is
left without. -/
def ExtensionAdded (before after : Option (List Str)) : Prop :=
  (before = none → after = none) ∧
    ∀ extensions, before = some extensions →
      ∃ extensions', after = some extensions' ∧ extensionUri ∈ extensions' ∧
        (extensions' = extensions ∨ extensionUri ∉ extensions ∧ extensions' = extensions ++ [extensionUri])

omit [Interp] in
theorem extensionAdded (before : Option (List Str)) : ExtensionAdded before (before.map appendExtension) := by
  refine ⟨fun h => by rw [h]; rfl, fun extensions h => ⟨appendExtension extensions, by rw [h]; rfl, ?_⟩⟩
  rcases appendExtension_eq extensions with ⟨hmem, heq⟩ | ⟨hmem, heq⟩
  · exact ⟨by rwa [heq], .inl heq⟩
  · exact ⟨by simp [heq], .inr ⟨hmem, heq⟩⟩

omit [Interp] in
theorem appendExtension_idem (extensions : List Str) :
    appendExtension (appendExtension extensions) = appendExtension extensions := by
  rcases appendExtension_eq extensions with ⟨_, heq⟩ | ⟨_, heq⟩
  · rw [heq, heq]
  · rw [heq, appendExtension, if_pos (by simp)]

omit [Interp] in
/-- The other keys keep their values. -/
theorem get?_merged_other {k : Str} (hk : k ∉ ca2aMetadataKeys) :
    Dict.get? ((merged r prior).map fun kv => (kv.1, floats kv.2)) k = Dict.get? prior.items k := by
  rw [← keys_fieldsOf r] at hk
  rw [get?_merged_map, get?_merged, Dict.get?_eq_none_iff.mpr hk, Option.getD_none]
  cases hget : Dict.get? prior.items k with
  | none => rfl
  | some v => exact congrArg some (floats_of_noInt (noInt_obj.mp prior.noInt _ (Dict.get?_mem hget)))

/-- **The bridge is a round trip.** Whatever finite numbers the message held, and an earlier request too, the request comes
back from it, integers and all; what else is in the metadata stays; the extension is added once; and nothing shows of a
request that was attached before. A depth or a bound that is not integral is refused. -/
theorem sdkBridge_roundTrip (hdouble : ExactDouble double) (message : SdkMessage F) (prior : Struct)
    (hprior : message.metadata = some prior) (hfinite : FiniteFloats (.obj prior.items)) :
    (∀ r : PeerRequest, r.WireValid → r.Encodable → r.chain ≠ [] →
      ∃ out s, attachToSdkMessage double message r = .ok out ∧ parseSdkMessage out = .ok (some r) ∧
        out.fields = message.fields ∧ out.metadata = some s ∧
        (∀ k, k ∉ ca2aMetadataKeys → Dict.get? s.items k = Dict.get? prior.items k) ∧
        ExtensionAdded message.extensions out.extensions ∧
        ∀ r₁ : PeerRequest, r₁.WireValid → r₁.Encodable →
          ∃ mid out', attachToSdkMessage double message r₁ = .ok mid ∧ attachToSdkMessage double mid r = .ok out' ∧
            parseSdkMessage out' = parseSdkMessage out ∧ out'.extensions = out.extensions) ∧
    ∀ hops d field f, Dict.get? prior.items keyDelegationChain = some (.arr hops) → .obj d ∈ hops → field ∈ integerFields →
      Dict.get? d field = some (.float f) → integer? f = none →
      ∃ e, parseSdkMessage message = .error e ∧ e.isClass .transportError := by
  constructor
  · intro r hr h hchain
    obtain ⟨s, hs, hsfinite, hattach⟩ := attachToSdkMessage_ok hdouble hprior hfinite hr h
    have hparse : parseSdkMessage (message.attached s) = .ok (some r) :=
      parseSdkMessage_attached hr h hchain hs hsfinite rfl
    refine ⟨_, s, hattach, hparse, rfl, rfl, fun k hk => hs ▸ get?_merged_other hk, extensionAdded _, fun r₁ hr₁ h₁ => ?_⟩
    obtain ⟨s₁, _, hs₁finite, hattach₁⟩ := attachToSdkMessage_ok hdouble hprior hfinite hr₁ h₁
    have hmid : (message.attached s₁).metadata = some s₁ := rfl
    obtain ⟨s', hs', hs'finite, hattach'⟩ := attachToSdkMessage_ok hdouble hmid hs₁finite hr h
    refine ⟨_, _, hattach₁, hattach', ?_, ?_⟩
    · exact (parseSdkMessage_attached hr h hchain hs' hs'finite rfl).trans hparse.symm
    · simp [SdkMessage.attached, Function.comp_def, appendExtension_idem]
  · intro hops d field f hchain hhop hfield hget hf
    exact parseSdkMessage_nonIntegral hprior hfinite hchain hhop hfield hget hf

end

/-- Metadata whose chain has a hop of depth one half. -/
def halfDepth : Struct where
  items := [(keyDelegationChain, .arr [.obj [(lit "depth", .float (.finite (1 / 2)))]])]
  wf := by
    simp only [Json.wf_obj, Json.wf_arr, List.forall_mem_singleton, Dict.keys, List.map_cons, List.map_nil, List.nodup_singleton]
    exact ⟨trivial, trivial, trivial⟩
  noInt := by
    simp only [noInt_obj, noInt_arr, List.forall_mem_singleton]
    exact trivial
  clean := by
    simp only [Json.cleanText_obj, Json.cleanText_arr, List.forall_mem_singleton]
    exact ⟨by simp [keyDelegationChain, extensionUri], clean_lit _, trivial⟩

theorem delegatedRequest_encodable : delegatedRequest.Encodable where
  chain := by
    intro c hc
    rw [DelegationCredential.canonical_body_iff]
    rcases List.mem_pair.mp hc with rfl | rfl
    · simp [wireGrant, readGrant, clean_lit, clean_hex]
    · simp [wireDelegation, readGrant, clean_lit, clean_hex, maxSafeInteger]
  requestedCapability := clean_lit _
  recordId := clean_lit _
  parentRecordHash := by simp [delegatedRequest, clean_lit]
  callerOffer := by simp [delegatedRequest]
  holderProof := by
    intro proof hproof
    obtain rfl : proof = ⟨lit "challenge", lit "signature"⟩ := (Option.some.inj hproof).symm
    exact ⟨clean_lit _, clean_lit _⟩
  callerPossession := by simp [delegatedRequest]

/-- The depth of one half is refused, and a request attached over it comes back, with the depths and the bounds of its
chain. -/
theorem sdkBridge_halfDepth :
    let _ := Interp.ascii
    let message : SdkMessage Unit := { fields := (), metadata := some halfDepth, extensions := some [] }
    (∃ e, parseSdkMessage message = .error e ∧ e.isClass .transportError) ∧
    ∃ out, attachToSdkMessage (fun i => .ok (.finite i)) message delegatedRequest = .ok out ∧
      parseSdkMessage out = .ok (some delegatedRequest) := by
  intro _ message
  have hfinite : FiniteFloats (.obj halfDepth.items) := by
    simp only [halfDepth, finiteFloats_obj, finiteFloats_arr, List.forall_mem_singleton]
    exact (rfl : PyFloat.isFinite (.finite (1 / 2)) = true)
  obtain ⟨hattach, hrefuse⟩ := sdkBridge_roundTrip (fun i _ => rfl) message halfDepth rfl hfinite
  refine ⟨hrefuse _ _ (lit "depth") (.finite (1 / 2)) rfl List.mem_cons_self (by simp [integerFields]) rfl ?_, ?_⟩
  · norm_num [integer?]
  · obtain ⟨out, s, hout, hparse, _⟩ := hattach delegatedRequest delegatedRequest_wireValid delegatedRequest_encodable
      (by decide)
    exact ⟨out, hout, hparse⟩

end Ca2a
