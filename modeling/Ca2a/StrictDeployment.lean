/-
An authenticated call over the wire.

The request travels in canonical form, so the server reads its keys in
another order than the caller wrote them; `parse_norm` says that the parser
does not notice. The answer is authenticated and written in its own order,
and the caller checks it against the request it holds. With that, such a call
comes to what the node answers, as a legacy one does
(`deployed_call_authenticated`).
-/
import Ca2a.Deployment

namespace Ca2a

open Py

/-! ## The order of keys -/

/-- The two dictionaries hold the same under every key. -/
def Alike {α : Type} (d e : Dict α) : Prop := ∀ k, Dict.get? d k = Dict.get? e k

theorem Alike.keys {α : Type} {d e : Dict α} (h : Alike d e) : (Dict.keys d).toFinset = (Dict.keys e).toFinset := by
  ext k
  rw [List.mem_toFinset, List.mem_toFinset, ← not_iff_not, ← Dict.get?_eq_none_iff, ← Dict.get?_eq_none_iff, h k]

/-- An object in key order holds what it held, each value in its own order. -/
theorem norm_alike {d : Dict Json} (hd : (Dict.keys d).Nodup) :
    ∃ e, (Json.obj d).norm = .obj e ∧ ∀ k, Dict.get? e k = (Dict.get? d k).map Json.norm := by
  refine ⟨_, Json.norm_obj d, fun k => ?_⟩
  have hnodup : (Dict.keys (d.map fun kv => (kv.1, kv.2.norm))).Nodup := by
    rw [Dict.keys, List.map_map]
    exact hd
  rw [Dict.get?_perm (Json.keys_sortKeys_nodup.mpr hnodup) (Json.sortKeys_perm _)]
  exact get?_map_values Json.norm d k

theorem norm_optStr (o : Option Str) : (optStr o).norm = optStr o := by cases o <;> rfl

theorem norm_strArr (l : List Str) : (strArr l).norm = strArr l := by
  rw [strArr, Json.norm_arr, List.map_map]
  exact congrArg Json.arr (List.map_congr_left fun _ _ => rfl)

section
variable [Interp]

theorem DelegationCredential.fromDict_congr {d e : Dict Json} (h : Alike d e) :
    DelegationCredential.fromDict (.obj d) = DelegationCredential.fromDict (.obj e) := by
  simp only [DelegationCredential.fromDict, DelegationCredential.boundField, h.keys, h _]

/-- Credentials, proofs and offers are read in any order of their keys. -/
theorem DelegationCredential.fromDict_norm {c : DelegationCredential} (hc : c.WireValid) :
    DelegationCredential.fromDict (Json.obj (credentialToDict c)).norm = .ok c := by
  obtain ⟨e, he, hget⟩ := norm_alike (Json.wf_obj.mp (wf_credentialToDict c)).1
  have halike : Alike e (credentialToDict c) := by
    intro k
    rw [hget]
    cases hv : Dict.get? (credentialToDict c) k with
    | none => rfl
    | some v =>
      have hmem := Dict.get?_mem hv
      rw [credentialToDict_eq] at hmem
      have hfixed : v.norm = v := by
        simp only [List.mem_append, List.mem_cons, List.not_mem_nil, or_false, mem_optField, Option.map_eq_some_iff,
          Prod.mk.injEq] at hmem
        rcases hmem with ((h | ⟨_, ⟨n, _, rfl⟩, _, rfl⟩) | ⟨_, ⟨n, _, rfl⟩, _, rfl⟩) | ⟨_, rfl⟩
        · rcases h with ⟨_, rfl⟩ | ⟨_, rfl⟩ | ⟨_, rfl⟩ | ⟨_, rfl⟩ | ⟨_, rfl⟩ | ⟨_, rfl⟩ <;>
            first | exact norm_strArr _ | exact norm_optStr _ | rfl
        all_goals rfl
      exact congrArg some hfixed
  rw [he, fromDict_congr halike, fromDict_credentialToDict hc]

theorem parseHops_norm {chain : List DelegationCredential} (h : ∀ c ∈ chain, c.WireValid) (i : Nat) :
    parseHops i (chain.map fun c => (Json.obj (credentialToDict c)).norm) = .ok chain := by
  induction chain generalizing i with
  | nil => rfl
  | cons c chain ih =>
    have hread := DelegationCredential.fromDict_norm (h c List.mem_cons_self)
    have hhop : parseHop i (Json.obj (credentialToDict c)).norm = .ok c := by
      rw [Json.norm_obj] at hread ⊢
      simp only [parseHop, hread, catchClass]
    rw [List.map_cons, parseHops, hhop, ok_bind, ih fun c' hc' => h c' (List.mem_cons_of_mem _ hc')]
    rfl

theorem evidenceField_congr {d e : Dict Json} (h : Alike d e) (field : Str) :
    evidenceField (.obj d) field = evidenceField (.obj e) field := by
  simp only [evidenceField, containsKey, Dict.has, subscript, h field]

theorem parseChannelOffer_norm {offer : ChannelOffer} (ho : offer.WireValid) :
    parseChannelOffer (Json.obj (serializeChannelOffer offer)).norm = .ok offer := by
  obtain ⟨e, he, hget⟩ := norm_alike (Json.wf_obj.mp (wf_serializeChannelOffer offer none)).1
  obtain ⟨a, ha, hattestation⟩ := norm_alike (Json.wf_obj.mp (wf_attestationItems offer.report)).1
  have htexts : Alike a (attestationItems offer.report) := by
    intro k
    rw [hattestation]
    cases hv : Dict.get? (attestationItems offer.report) k with
    | none => rfl
    | some v =>
      have hevidence : ∀ {field value}, (k, v) ∈ attestationItems.evidence field value → v.norm = v := by
        intro field value h
        obtain ⟨j, hj, heq⟩ := mem_optField.mp h
        obtain ⟨b, _, rfl⟩ := Option.map_eq_some_iff.mp hj
        cases heq
        rfl
      have hmem := Dict.get?_mem hv
      simp only [attestationItems, List.mem_append, List.mem_cons, List.not_mem_nil, or_false, Prod.mk.injEq] at hmem
      have hfixed : v.norm = v := by
        rcases hmem with ((((h | h) | h) | h) | h) | h
        · rcases h with ⟨_, rfl⟩ | ⟨_, rfl⟩ | ⟨_, rfl⟩ | ⟨_, rfl⟩ <;> rfl
        · obtain ⟨j, hj, heq⟩ := mem_optField.mp h
          cases heq
          split at hj
          · cases hj
          · cases hj
            rfl
        all_goals exact hevidence h
      exact congrArg some hfixed
  have hpub : Dict.get? e (lit "channel_public_key") = some (.str offer.channelPublicKey) := by
    rw [hget, serializeChannelOffer]
    simp [Dict.get?_cons, Json.norm]
  have hatt : Dict.get? e (lit "attestation") = some (.obj a) := by
    rw [hget, serializeChannelOffer]
    simpa [Dict.get?_cons] using ha
  have hplain := parseChannelOffer_serialize ho none
  rw [← hplain, he]
  have hpub' : Dict.get? (serializeChannelOffer offer) (lit "channel_public_key") = some (.str offer.channelPublicKey) := by
    simp [serializeChannelOffer, Dict.get?_cons]
  have hatt' : Dict.get? (serializeChannelOffer offer) (lit "attestation") = some (.obj (attestationItems offer.report)) := by
    simp [serializeChannelOffer, Dict.get?_cons]
  simp only [parseChannelOffer, subscript, hpub, hatt, hpub', hatt', ok_bind, evidenceField_congr htexts, getDefault,
    htexts _]

omit [Interp] in
theorem holderProof_norm {proof : HolderProof} (hc : proof.challenge ≠ []) (hs : proof.signature ≠ []) :
    HolderProof.fromDict (Json.obj proof.toDict).norm = .ok proof := by
  obtain ⟨e, he, hget⟩ := norm_alike (d := proof.toDict) (by simp [HolderProof.toDict, Dict.keys])
  rw [he, ← HolderProof.fromDict_toDict hc hs, HolderProof.fromDict, HolderProof.fromDict, hget, hget]
  simp [HolderProof.toDict, Dict.get?_cons, Json.norm]

omit [Interp] in
theorem possessionField_norm {possession : CallerPossession} (h : possession.version ≠ [] ∧ possession.mac ≠ []) :
    possessionField (Json.obj possession.toDict).norm = .ok possession := by
  obtain ⟨e, he, hget⟩ := norm_alike (d := possession.toDict) (by simp [CallerPossession.toDict, Dict.keys])
  rw [he, ← possessionField_toDict h, possessionField, possessionField, CallerPossession.fromDict,
    CallerPossession.fromDict, hget, hget]
  simp [CallerPossession.toDict, Dict.get?_cons, Json.norm]

omit [Interp] in
/-- A field that is written, in its own order, is read back. -/
theorem optionalField_norm {α : Type} {f : α → Json} {parse : Json → Result α} {o : Option α}
    (hparse : ∀ a ∈ o, parse (f a).norm = .ok a) (hne : ∀ a, (f a).norm ≠ .null) :
    optionalField ((o.map f).map Json.norm) parse = .ok o := by
  cases o with
  | none => rfl
  | some a =>
    rw [Option.map_some, Option.map_some, optionalField]
    · rw [hparse a rfl]
      rfl
    · exact hne a

/-- **The parser reads a message in any order of its keys**: here in the canonical one. -/
theorem parse_norm {r : PeerRequest} (hr : r.WireValid) (hchain : r.chain ≠ []) {e : Dict Json}
    (he : (Json.obj (taskMessage r).items).norm = .obj e) : parsePeerRequest e = .ok (some r) := by
  have hnodup : (Dict.keys (writeFields r [])).Nodup := (Json.wf_obj.mp (@wf_writeFields r [] (by simp [Dict.keys]))).1
  obtain ⟨m, hm, hget⟩ := norm_alike hnodup
  have hitems : e = [(lit "metadata", .obj m)] := by
    rw [taskMessage, Json.norm_obj] at he
    simp only [List.map_cons, List.map_nil, hm] at he
    exact (Json.obj.inj he).symm
  have hmkeys : (Dict.keys m).Nodup := by
    rw [Json.norm_obj] at hm
    rw [← Json.obj.inj hm, Json.keys_sortKeys_nodup, Dict.keys, List.map_map]
    exact hnodup
  have hread : ∀ {k o}, Dict.get? (fieldsOf r) k = some o → Dict.get? (collectMetadata e) k = o.map Json.norm := by
    intro k o hk
    have hcollect : collectMetadata e = Dict.update [] m := by
      simp [collectMetadata, hitems, Dict.get?_cons, itemsOf]
    rw [hcollect, Dict.get?_update hmkeys, Dict.get?_nil, Option.or_none, hget, get?_writeFields, hk]
    rfl
  obtain ⟨hkchain, hkcapability, hkrecord, hkparent, hksealed, hkoffer, hkproof, hkpossession⟩ := get?_fieldsOf r
  have hhas : hasCa2aMetadata (collectMetadata e) = true := by
    simp [hasCa2aMetadata, ca2aMetadataKeys, Dict.has, hread hkchain]
  have hchainRead : chainField (Dict.get? (collectMetadata e) keyDelegationChain) = .ok r.chain := by
    have hhops := parseHops_norm hr.chain 0
    rw [hread hkchain, Option.map_some, Json.norm_arr, List.map_map]
    cases hc : r.chain with
    | nil => exact absurd hc hchain
    | cons c chain =>
      rw [hc] at hhops
      exact hhops
  have hcapability : requiredText "requested_capability must be a non-empty string"
      (Dict.get? (collectMetadata e) keyRequestedCapability) = .ok r.requestedCapability := by
    rw [hread hkcapability]
    exact requiredText_str hr.requestedCapability
  have hrecord : requiredText "record_id must be a non-empty string" (Dict.get? (collectMetadata e) keyRecordId) =
      .ok r.recordId := by
    rw [hread hkrecord]
    exact requiredText_str hr.recordId
  have hparent : parentHashField (Dict.get? (collectMetadata e) keyParentRecordHash) = .ok r.parentRecordHash := by
    rw [hread hkparent, Option.map_some, norm_optStr]
    exact parentHashField_optStr _
  have hsealed : optionalField (Dict.get? (collectMetadata e) keySealedPayload) sealedField = .ok r.sealedPayload := by
    rw [hread hksealed]
    exact optionalField_norm (fun b hb => sealedField_b64urlEncode fun h => hr.sealedPayload (by rw [Option.mem_def.mp hb, h]))
      fun b => by simp [Json.norm]
  have hoffer : optionalField (Dict.get? (collectMetadata e) keyCallerOffer) parseChannelOffer = .ok r.callerOffer := by
    rw [hread hkoffer]
    exact optionalField_norm (fun o ho => parseChannelOffer_norm (hr.callerOffer o ho)) fun o => by simp
  have hpossession : optionalField (Dict.get? (collectMetadata e) keyCallerPossession) possessionField =
      .ok r.callerPossession := by
    rw [hread hkpossession]
    exact optionalField_norm (fun p hp => possessionField_norm (hr.callerPossession p hp)) fun p => by simp
  have hproof : optionalField (Dict.get? (collectMetadata e) keyHolderProof) HolderProof.fromDict = .ok r.holderProof := by
    rw [hread hkproof]
    exact optionalField_norm (fun p hp => holderProof_norm (hr.holderProof p hp).1 (hr.holderProof p hp).2) fun p => by simp
  rw [parsePeerRequest]
  simp only [hhas, Bool.true_eq_false, if_false, hchainRead, hcapability, hrecord, hparent, hsealed, hoffer, hpossession,
    hproof, ok_bind]

/-! ## The server -/

variable [Crypto]

omit [Interp] in
theorem Crypto.Correct.symmetric (hc : Crypto.Correct) : Crypto.SymmetricExchange := by
  intro a b shared h
  obtain ⟨s, hs, hs'⟩ := hc.agreement a b
  cases h.symm.trans hs
  exact hs'

namespace Deployment
variable {d : Deployment} {raw : Bytes} {envelope : JsonDict}

theorem replies_authenticatedTask (d : Deployment) (raw : Bytes) : d.replies.authenticatedTask raw =
    replyOf ((d.node.served d.clock).doPost (serverLoads d.overflows) (posted authenticatedTaskPath raw)) := rfl

/-- What the handler does is read the envelope and what it does with it. -/
theorem authenticatedTask_eq (hne : 1 ≤ raw.length) (hshort : raw.length ≤ maxBody) (hdecode : decodeDict raw = .ok envelope) :
    d.replies.authenticatedTask raw =
      replyOf ⟨[.started (.read raw.length), .returned (.read raw.length)] ++
        ((d.node.served d.clock).answerAuthenticated envelope).trace,
        ((d.node.served d.clock).answerAuthenticated envelope).result⟩ := by
  have hbody : (posted authenticatedTaskPath raw).read raw.length = .ok raw :=
    (if_pos (le_refl raw.length)).trans (congrArg Except.ok List.take_length)
  have hpath : (posted authenticatedTaskPath raw).path = authenticatedTaskPath := rfl
  rw [replies_authenticatedTask, Served.doPost_posted _ _ (.inr rfl) hne hshort, Served.answerBody, if_pos hpath, hbody]
  have hparsed : (do
      let raw ← Traced.step (Act.read raw.length) (.ok raw)
      Traced.lift ((decodeDict raw).mapError .raised)) =
        (⟨[.started (.read raw.length), .returned (.read raw.length)], .ok envelope⟩ : Serving JsonDict) := by
    rw [Traced.step_bind]
    simp only [hdecode]
    rfl
  rw [hparsed, Traced.tryElse_of_ok rfl]

theorem authenticated_delivered (hne : 1 ≤ raw.length) (hshort : raw.length ≤ maxBody)
    (hdecode : decodeDict raw = .ok envelope) {status : Int} {result : Dict Json}
    (hhandle : d.node.handleAuthenticated envelope d.clock = .ok (status, result)) {data : Bytes}
    (hdata : sendJson result = .ok data) : d.replies.authenticatedTask raw = .delivered status data := by
  rw [authenticatedTask_eq hne hshort hdecode, Served.answerAuthenticated, PeerNode.served_handleAuthenticated, hhandle]
  have hsent : (Traced.lift ((Except.ok (status, result) : Result (Int × Dict Json)).mapError ServeError.raised) >>=
      fun answer => sendResponse answer.1 answer.2) =
      ⟨[.started (.send status data), .returned (.send status data)], .ok ()⟩ := sendResponse_eq hdata status
  change replyOf (Traced.tryElse (_ >>= fun answer : Int × Dict Json => sendResponse answer.1 answer.2) _ _) = _
  rw [hsent, Traced.tryElse_of_ok rfl]
  exact @replyOf_sent [] (by simp) _ _ _ _

theorem authenticated_dropped (hne : 1 ≤ raw.length) (hshort : raw.length ≤ maxBody)
    (hdecode : decodeDict raw = .ok envelope) {k : ExcKind} {t : Str}
    (hhandle : d.node.handleAuthenticated envelope d.clock = .error (.builtin k t)) :
    ∃ text, d.replies.authenticatedTask raw = .httpException text := by
  rw [authenticatedTask_eq hne hshort hdecode, Served.answerAuthenticated, PeerNode.served_handleAuthenticated, hhandle]
  exact ⟨_, rfl⟩

end Deployment

/-! ## The client -/

/-- The caller's clock: it starts to wait, and reads the answer before its time is over. -/
structure Draws.Waits (draws : Draws) (start first last : PyFloat) : Prop where
  started : draws.started = .ok start ∧ start.isFinite = true
  before : draws.before = some first
  after : draws.after = some last
  within : ∀ now ∈ [first, last],
    now.isFinite = true ∧ start.le now = true ∧ now.lt (Interp.floatAdd start defaultTimeout) = true

/-- What `verify` returns for an answer to the request. -/
def responseTo (peer : VerifiedPeer) (raw : Bytes) (status : Int) (body : Dict Json) : VerifiedResponse where
  status
  body
  requestSha256 := Crypto.sha256Hex raw
  peerAssurance := peer.assurance

/-- A pending response is made for an envelope that is encoded. -/
theorem exists_pending (hc : Crypto.Correct) {peer : VerifiedPeer}
    {key : Crypto.XKey} (hkey : peer.publicKey = hex (Crypto.xPublic key)) {message : JsonDict} {draws : Draws}
    {start first last : PyFloat} (hclock : draws.Waits start first last) {raw : Bytes}
    (hraw : encode (PendingResponse.envelope peer message draws.responseKey draws.session) = .ok raw) :
    ∃ pending, PendingResponse.create peer message defaultTimeout draws.responseKey draws.session draws.started = .ok pending ∧
      pending.request = raw ∧ pending.requestSha256 = Crypto.sha256Hex raw ∧ pending.assurance = peer.assurance ∧
      pending.Within first ∧ pending.Within last := by
  obtain ⟨shared, hshared, _⟩ := hc.agreement draws.responseKey key
  have hresponseKey : responseKey draws.responseKey (.str peer.publicKey) (Crypto.sha256Hex raw) =
      .ok (Crypto.hkdf (some (Crypto.sha256 raw)) (asciiBytes "ca2a/response-mac/v1/key") shared) :=
    responseKey_ok_iff.mpr ⟨_, shared, _, by rw [hkey], hc.xPublic key, hshared, fromHex?_hex _, rfl⟩
  have htimeout : ¬ (defaultTimeout.isFinite = false ∨
      ¬ ((PyFloat.finite 0).lt defaultTimeout = true ∧ defaultTimeout.le (.finite 300) = true)) := by
    decide +kernel
  obtain ⟨hstarted, hfinite⟩ := hclock.started
  have hcreate : PendingResponse.create peer message defaultTimeout draws.responseKey draws.session draws.started = .ok
      { request := raw
        requestSha256 := Crypto.sha256Hex raw
        key := Crypto.hkdf (some (Crypto.sha256 raw)) (asciiBytes "ca2a/response-mac/v1/key") shared
        assurance := peer.assurance
        started := start
        deadline := Interp.floatAdd start defaultTimeout
        used := false } := by
    rw [PendingResponse.create, if_neg htimeout, hraw, ok_bind, hstarted]
    simp only [hresponseKey, ok_bind]
    rw [if_neg (by rw [hfinite]; exact Bool.noConfusion)]
  exact ⟨_, hcreate, rfl, rfl, rfl, hclock.within first List.mem_cons_self,
    hclock.within last (List.mem_cons_of_mem _ List.mem_cons_self)⟩

/-- The end of a call with an authenticated response. -/
theorem sendTask_authenticated {server : Server} {args : TaskArgs} {draws : Draws} {hello : Handshake}
    (hhello : (handshake server args.verifier args.requireHardware (hex draws.nonce)).result = .ok hello)
    {request : PeerRequest} (hrequest : buildRequest args hello draws = .ok request)
    (hstrict : args.requireAuthenticatedResponse = true) :
    (sendTask server args draws).result = (sendAuthenticated server hello.peer (taskMessage request) draws).result := by
  simp only [sendTask, Traced.bind_result, hhello, ok_bind, Run.of_result, hrequest, raised_ok, hstrict, if_true]

/-- **A delivered answer is what the call comes to.** -/
theorem sendAuthenticated_delivered {server : Server} (hscheme : server.scheme ∈ allowedSchemes) {peer : VerifiedPeer}
    {message : JsonDict} {draws : Draws} {pending : PendingResponse}
    (hp : PendingResponse.create peer message defaultTimeout draws.responseKey draws.session draws.started = .ok pending)
    {first last : PyFloat} (hbefore : draws.before = some first) (hafter : draws.after = some last) {status : Int}
    {body : JsonDict} {result : Dict Json} (hdelivered : Delivered pending status body result first last)
    (hposted : ∀ data, sendJson result = .ok data → server.authenticatedTask pending.request = .ok (status, data)) :
    (sendAuthenticated server peer message draws).result =
      (let response : VerifiedResponse :=
        { status, body := body.items, requestSha256 := pending.requestSha256, peerAssurance := pending.assurance }
      if status ≠ 200 then response.denial.mapError .raised >>= fun denial => .error (.authenticatedPeerError denial)
      else .ok (Dict.set body.items (lit "response_authentication") (.obj response.authentication))) := by
  obtain ⟨data, hdata, hread, hverify⟩ := hdelivered
  have hallowed : requireHttpUrl server.scheme = .ok () := if_neg (not_not.mpr hscheme)
  have hanswer : (verifiedAnswer server pending draws).result = .ok
      { status, body := body.items, requestSha256 := pending.requestSha256, peerAssurance := pending.assurance } := by
    simp only [verifiedAnswer, Traced.bind_result, Run.of_result, Run.exchange_result, hallowed, raised_ok, ok_bind,
      hposted data hdata, hread, hbefore, hafter, hverify]
  simp only [sendAuthenticated, Traced.bind_result, Run.of_result, hp, raised_ok, ok_bind, Traced.mapError_result, hanswer]
  change (if _ then _ else _ : Run (Dict Json)).result = _
  split
  · rw [Traced.bind_result, Run.of_result]
    rfl
  · rfl

/-! ## The call -/

omit [Crypto] in
theorem encode_ne_nil {v : Dict Json} {raw : Bytes} (h : encode v = .ok raw) : 1 ≤ raw.length := by
  obtain ⟨_, htext⟩ := canonicalize_ok_iff.mp (encode_ok_iff.mp h).2.1
  cases raw with
  | nil =>
    rw [Json.norm_obj, Style.print] at htext
    cases utf8?_injective htext (rfl : utf8? [] = some [])
  | cons x raw => simp

namespace Deployment
variable {d : Deployment} {overflows : Str → Bool} {args : TaskArgs} {draws : Draws} {hello : Handshake}
  {request : PeerRequest}

/-- What the server reads of the envelope is the message, in canonical order. -/
theorem exists_envelope (hc : Crypto.Correct) {pending : PendingResponse} {peer : VerifiedPeer}
    (hkey : peer.publicKey = d.node.channelPublicKey) {message : JsonDict} {ephemeral : Crypto.XKey} {session : Bytes}
    (hsession : session.length = 32) (hp : pending.Fresh peer message ephemeral session) :
    ∃ envelope producer e, decodeDict pending.request = .ok envelope ∧
      ResponseProducer.create d.node.privateKey envelope = .ok producer ∧
      producer.Built d.node.privateKey pending.request ∧
      (Json.obj message.items).norm = .obj e ∧ Dict.get? producer.envelope (lit "request") = some (.obj e) := by
  obtain ⟨envelope, hdecode, producer, hproducer⟩ := producer_of_fresh hc.symmetric hp hkey (hc.xPublic _) hsession
  have hbuilt := built_of_request hp hdecode hproducer
  obtain ⟨items, hitems, hnorm, _⟩ := decode_encode (PendingResponse.wf_envelope peer message ephemeral session) hp.encoded
  obtain rfl : producer.envelope = items := Except.ok.inj (hbuilt.decoded.symm.trans hitems)
  rw [PendingResponse.norm_envelope] at hnorm
  obtain ⟨e, he, _⟩ := norm_alike (Json.wf_obj.mp message.wf).1
  refine ⟨envelope, producer, e, ?_, hproducer, hbuilt, he, ?_⟩
  · unfold decodeDict
    split
    · rename_i read hread
      obtain rfl := Except.ok.inj (hdecode.symm.trans hread)
      rfl
    · rename_i hread
      cases hdecode.symm.trans hread
  · rw [Json.obj.inj hnorm, he]
    simp [Dict.get?_cons]

theorem handle_norm (hwire : request.WireValid) (hchain : request.chain ≠ []) {e : Dict Json}
    (he : (Json.obj (taskMessage request).items).norm = .obj e) :
    d.node.handle e d.clock = d.node.handle (taskMessage request).items d.clock := by
  rw [handle_taskMessage hwire hchain, PeerNode.handle, parse_norm hwire hchain he, ok_bind]

/-- **An answer of the node is what an authenticated call comes to.** -/
theorem authenticated_answered (hc : Crypto.Correct) (hsize : Crypto.Sizes)
    (hhello : (handshake (d.replies.server overflows) args.verifier args.requireHardware (hex draws.nonce)).result = .ok hello)
    (hkey : hello.peer.publicKey = d.node.channelPublicKey) (hrequest : buildRequest args hello draws = .ok request)
    (hwire : request.WireValid) (hchain : request.chain ≠ []) (hstrict : args.requireAuthenticatedResponse = true)
    (hsession : draws.session.length = 32) {start first last : PyFloat} (hclock : draws.Waits start first last) {raw : Bytes}
    (hraw : encode (PendingResponse.envelope hello.peer (taskMessage request) draws.responseKey draws.session) = .ok raw)
    {status : Int} {body : JsonDict} (hanswer : d.node.answer (taskMessage request).items d.clock = .ok (status, body))
    (hcanonical : Canonical (.obj body.items)) (hheight : (Json.obj body.items).height ≤ 5) (hfits : BodyFitsWire status body) :
    (sendTask (d.replies.server overflows) args draws).result =
      (let response := responseTo hello.peer raw status body.items
      if status ≠ 200 then response.denial.mapError .raised >>= fun denial => .error (.authenticatedPeerError denial)
      else .ok (Dict.set body.items (lit "response_authentication") (.obj response.authentication))) := by
  obtain ⟨pending, hcreate, rfl, hsha, hassurance, hbefore, hafter⟩ := exists_pending hc hkey hclock hraw
  have hfresh := PendingResponse.fresh_of_create hcreate
  obtain ⟨envelope, producer, e, hdecode, hproducer, hbuilt, he, hread⟩ := exists_envelope hc hkey hsession hfresh
  obtain ⟨hstatus, hbody⟩ := PeerNode.answer_fits hanswer
  have hcheck : check 1 (.obj body.items) = .ok () := (check_ok_iff (by omega)).mpr (by omega)
  obtain ⟨result, hfinish⟩ := finish_of_fits hsize hbuilt hstatus hcheck hcanonical hfits
  have hhandle : d.node.handleAuthenticated envelope d.clock = .ok (status, result) := by
    have hanswer' : d.node.answer e d.clock = .ok (status, body) := by
      rw [← hanswer, PeerNode.answer, PeerNode.answer, handle_norm hwire hchain he]
    simp only [PeerNode.handleAuthenticated, hproducer, ok_bind, item_ok_iff.mpr hread, itemsOf, hanswer', hfinish]
  have hdelivered := (finish_delivered_iff hc.symmetric hsize hfresh hbuilt hfinish hstatus hbody hbefore hafter).mpr hfits
  have hshort : pending.request.length ≤ maxBody := (encode_ok_iff.mp hraw).2.2
  rw [sendTask_authenticated hhello hrequest hstrict,
    sendAuthenticated_delivered List.mem_cons_self hcreate hclock.before hclock.after hdelivered fun data hdata => by
      rw [Replies.server_authenticatedTask,
        authenticated_delivered (encode_ne_nil hraw) hshort hdecode hhandle hdata]
      rfl]
  rw [hsha, hassurance]
  rfl

/-- What the node raises and nothing catches is an answer that never came. -/
theorem authenticated_unanswered (hc : Crypto.Correct)
    (hhello : (handshake (d.replies.server overflows) args.verifier args.requireHardware (hex draws.nonce)).result = .ok hello)
    (hkey : hello.peer.publicKey = d.node.channelPublicKey) (hrequest : buildRequest args hello draws = .ok request)
    (hwire : request.WireValid) (hchain : request.chain ≠ []) (hstrict : args.requireAuthenticatedResponse = true)
    (hsession : draws.session.length = 32) {start first last : PyFloat} (hclock : draws.Waits start first last) {raw : Bytes}
    (hraw : encode (PendingResponse.envelope hello.peer (taskMessage request) draws.responseKey draws.session) = .ok raw)
    {k : ExcKind} {t : Str} (hraised : d.node.handle (taskMessage request).items d.clock = .error (.builtin k t)) :
    (sendTask (d.replies.server overflows) args draws).result = .error noAuthenticatedResponse.unknown := by
  obtain ⟨pending, hcreate, rfl, _⟩ := exists_pending hc hkey hclock hraw
  obtain ⟨envelope, producer, e, hdecode, hproducer, _, he, hread⟩ :=
    exists_envelope hc hkey hsession (PendingResponse.fresh_of_create hcreate)
  have hhandle : d.node.handleAuthenticated envelope d.clock = .error (.builtin k t) := by
    have hanswer : d.node.answer e d.clock = .error (.builtin k t) := by
      rw [PeerNode.answer, handle_norm hwire hchain he, hraised]
      rfl
    simp only [PeerNode.handleAuthenticated, hproducer, ok_bind, item_ok_iff.mpr hread, itemsOf, hanswer]
    rfl
  obtain ⟨text, hdropped⟩ := authenticated_dropped (encode_ne_nil hraw) (encode_ok_iff.mp hraw).2.2 hdecode hhandle
  have hallowed : requireHttpUrl (d.replies.server overflows).scheme = .ok () := rfl
  have hanswer : (verifiedAnswer (d.replies.server overflows) pending draws).result =
      .error (.raised (.builtin .httpException text)) := by
    simp only [verifiedAnswer, Traced.bind_result, Run.of_result, hallowed, raised_ok, ok_bind, Run.exchange_result,
      Replies.server_authenticatedTask, hdropped, postAuthenticated]
    rfl
  rw [sendTask_authenticated hhello hrequest hstrict]
  simp only [sendAuthenticated, Traced.bind_result, Run.of_result, hcreate, raised_ok, ok_bind, Traced.mapError_result, hanswer]
  rfl

end Deployment

/-- **The authenticated wire is transparent.** A call that requires an authenticated response comes to what the node's
`handle_peer_request` gives on the request the caller built: the same body as a legacy call, with the local record of how it
was authenticated; the same error, as an authenticated denial; or, where it raises what nothing catches, no response. -/
theorem deployed_call_authenticated (hc : Crypto.Correct) (hsize : Crypto.Sizes) (d : Deployment) (overflows : Str → Bool)
    (args : TaskArgs) (draws : Draws) (leaf : DelegationCredential) (calleeOffer : ChannelOffer) (challenge : Str)
    (callerOffer : Option ChannelOffer) (start first last : PyFloat)
    (hs : d.Serves args draws leaf calleeOffer challenge callerOffer) (hstrict : args.requireAuthenticatedResponse = true)
    (hclient : TakesDepth overflows) (hsession : draws.session.length = 32) (hclock : draws.Waits start first last) :
    ∃ hello request,
      (handshake (d.replies.server overflows) args.verifier args.requireHardware (hex draws.nonce)).result = .ok hello ∧
      buildRequest args hello draws = .ok request ∧ Presents args d.node.privateKey leaf challenge callerOffer request ∧
      ∀ raw, encode (PendingResponse.envelope hello.peer (taskMessage request) draws.responseKey draws.session) = .ok raw →
        (∀ result, d.node.serve request d.clock = .ok result →
          (∀ s ∈ result.effectiveScope, Clean s) →
          ∃ body, serializePeerResult result = .ok body ∧ (BodyFitsWire 200 body →
            (sendTask (d.replies.server overflows) args draws).result =
              .ok (Dict.set body.items (lit "response_authentication")
                (.obj (responseTo hello.peer raw 200 body.items).authentication)))) ∧
        (∀ exc, d.node.serve request d.clock = .error (.app exc) →
          Clean exc.message → (∀ t ∈ exc.detail, Clean t) → BodyFitsWire exc.cls.httpStatus (serializeError exc) →
          (sendTask (d.replies.server overflows) args draws).result =
            .error (.authenticatedPeerError
              { message := exc.message, code := exc.cls.code, httpStatus := exc.cls.httpStatus,
                responseAuthentication :=
                  (responseTo hello.peer raw exc.cls.httpStatus (serializeError exc).items).authentication })) ∧
        ∀ k t, d.node.serve request d.clock = .error (.builtin k t) →
          (sendTask (d.replies.server overflows) args draws).result = .error noAuthenticatedResponse.unknown := by
  obtain ⟨hello, request, hhello, hkey, _, hrequest, hpresents, hwire, htexts, hchain⟩ := hs.exists_request hc hclient
  have hhandle := Deployment.handle_taskMessage (d := d) hwire hchain
  refine ⟨hello, request, hhello, hrequest, hpresents, fun raw hraw => ⟨fun result hresult heffective => ?_,
    fun exc hexc htext hdetail hfits => ?_, fun k t hraised => ?_⟩⟩
  · obtain ⟨body, hbody, hanswer, hcanonical, hheight, _⟩ :=
      Deployment.exists_answer hwire hchain htexts hresult heffective
    refine ⟨body, hbody, fun hfits => ?_⟩
    exact Deployment.authenticated_answered hc hsize hhello hkey hrequest hwire hchain hstrict hsession hclock hraw hanswer
      hcanonical hheight hfits
  · have hanswer : d.node.answer (taskMessage request).items d.clock = .ok (exc.cls.httpStatus, serializeError exc) := by
      rw [PeerNode.answer, hhandle, hexc]
      rfl
    obtain ⟨hcanonical, hheight⟩ := serializeError_fits htext hdetail
    have hstatus : (exc.cls.httpStatus : Int) ≠ 200 := by
      have := exc.cls.httpStatus_range
      omega
    rw [Deployment.authenticated_answered hc hsize hhello hkey hrequest hwire hchain hstrict hsession hclock hraw hanswer
      hcanonical hheight hfits]
    dsimp only
    rw [if_pos hstatus]
    simp [VerifiedResponse.denial, responseTo, serializeError, item, Dict.get?_cons, Except.mapError, Json.text]
  · exact Deployment.authenticated_unanswered hc hhello hkey hrequest hwire hchain hstrict hsession hclock hraw
      (hhandle.trans hraised)

/-! ### A call of known inputs -/

/-- A short request is encoded. -/
theorem exists_encode_envelope {request : PeerRequest} (hwire : request.WireValid) (htexts : request.Encodable)
    {peer : VerifiedPeer} (hpeer : Clean peer.publicKey) {ephemeral : Crypto.XKey} {session : Bytes}
    (hshort : (dumps (.obj (PendingResponse.envelope peer (taskMessage request) ephemeral session))).length ≤ maxBytes) :
    ∃ raw, encode (PendingResponse.envelope peer (taskMessage request) ephemeral session) = .ok raw := by
  have hmessage := canonical_taskMessage hwire htexts
  have hheight := height_taskMessage hwire htexts
  refine encode_of_dumps ?_ ?_ hshort
  · refine (check_ok_iff (Nat.zero_le 64)).mpr ?_
    have hle : (Json.obj (PendingResponse.envelope peer (taskMessage request) ephemeral session)).height ≤ 6 := by
      refine Json.height_obj_le.mpr fun kv hkv => ?_
      simp only [PendingResponse.envelope, List.mem_cons, List.not_mem_nil, or_false] at hkv
      rcases hkv with rfl | rfl | rfl | rfl | rfl
      case inr.inr.inr.inr => exact Nat.succ_le_succ hheight
      all_goals simp [Json.height]
    omega
  · simp [PendingResponse.envelope, canonical_obj, hpeer, clean_hex, clean_lit, responseProfile, hmessage]

end

/-! ### A call in the toy model -/

/-- The primitives of `agreed` with digests of 32 octets. -/
@[reducible] def Crypto.sized : Crypto := { Crypto.agreed with sha256 := fun _ => List.replicate 32 0 }

theorem Crypto.sized_correct : @Crypto.Correct Crypto.sized := by
  obtain ⟨hagreement, hpublic, hsignature, hmac, hkdf, haead⟩ := Crypto.agreed_correct
  exact @Crypto.Correct.mk Crypto.sized hagreement hpublic hsignature hmac hkdf haead

theorem Crypto.sized_sizes : @Crypto.Sizes Crypto.sized :=
  @Crypto.Sizes.mk Crypto.sized (fun _ => List.length_replicate) fun _ _ => List.length_replicate

/-- A call to read whose answer must be authenticated. -/
def strictArgs : @TaskArgs Crypto.sized :=
  let _ := Crypto.sized
  { chain := [wireGrant]
    requestedCapability := lit "read"
    recordId := lit "r0"
    holderKey := (2 : UInt8)
    requireAuthenticatedResponse := true }

def strictDraws : @Draws Crypto.sized :=
  let _ := Crypto.sized
  { nonce := List.replicate 16 9
    sealKey := (3 : UInt8)
    sealNonce := List.replicate 12 0
    callerKey := (4 : UInt8)
    responseKey := (6 : UInt8)
    session := List.replicate 32 7
    started := .ok (.finite 0)
    before := some (.finite 1)
    after := some (.finite 2) }

/-- A node that lets its peers read, served. -/
def strictDeployment : @Deployment Interp.ascii Crypto.sized :=
  let _ := Interp.ascii
  let _ := Crypto.sized
  { node :=
      { policy := localPolicy {lit "read"}
        privateKey := (5 : UInt8)
        challengeSecret := []
        trustedRootIssuers := {readGrant.issuer}
        requirement := requireNone_mem
        appraisable := appraisable_requireNone }
    issued := 0
    random := [1]
    clock := toyReadings
    overflows := fun _ => false }

/-- The length of its greeting, when there is one. -/
def strictGreeting : Option Nat :=
  let _ := Interp.ascii
  let _ := Crypto.sized
  match strictDeployment.node.offer (hex strictDraws.nonce), strictDeployment.node.issueChallenge 0 [1] with
  | .ok offer, .ok challenge => some (dumps (.obj (serializeChannelOffer offer (some challenge)))).length
  | _, _ => none

theorem strictDeployment_serves :
    let _ := Interp.ascii
    let _ := Crypto.sized
    ∃ calleeOffer challenge callerOffer,
      strictDeployment.Serves strictArgs strictDraws wireGrant calleeOffer challenge callerOffer := by
  intro _ _
  have hissued : (strictDeployment.node.issueChallenge 0 [1]).isOk = true := by decide +kernel
  obtain ⟨challenge, hchallenge⟩ := exists_of_isOk hissued
  have hgreeting : strictGreeting.any (· ≤ maxBytes) = true := by decide +kernel
  obtain ⟨n, hn, hshort⟩ := (Option.any_eq_true _ _).mp hgreeting
  rw [strictGreeting, hchallenge] at hn
  obtain rfl := Option.some.inj hn
  have hsigned : wireGrant.Signed := wireGrant_signed
  refine ⟨_, challenge, _,
    { nonce := rfl
      sealNonce := rfl
      offered := rfl
      challenged := hchallenge
      provider := softwareProvider_faithful
      calleeTexts := ⟨clean_hex _, clean_lit _, clean_lit _, clean_hex _, clean_hex _⟩
      verifier := fun h => absurd rfl h
      hardware := by simp [strictArgs]
      honest :=
        { wire := plainRequest_wireValid.chain
          leaf_eq := rfl
          holds := rfl
          capability := ⟨clean_lit _, by decide⟩
          recordId := ⟨clean_lit _, by decide⟩
          parentRecordHash := by simp [strictArgs] }
      chain := fun c hc => by
        obtain rfl := List.mem_singleton.mp hc
        exact hsigned.canonical
      callerProvider := by simp [strictArgs]
      offers := rfl
      callerTexts := by simp
      greeting := of_decide_eq_true hshort }⟩

theorem strictDraws_wait :
    @Draws.Waits Interp.ascii Crypto.sized strictDraws (.finite 0) (.finite 1) (.finite 2) := by
  let _ := Interp.ascii
  let _ := Crypto.sized
  have hwithin : ∀ now ∈ [PyFloat.finite 1, .finite 2], now.isFinite = true ∧ (PyFloat.finite 0).le now = true ∧
      now.lt (Interp.floatAdd (.finite 0) defaultTimeout) = true := by
    decide +kernel
  exact ⟨⟨rfl, rfl⟩, rfl, rfl, hwithin⟩

/-- That call is accepted, and its request and its answer are short enough. -/
def strictCall_fits : Bool :=
  let _ := Interp.ascii
  let _ := Crypto.sized
  match strictDeployment.called strictArgs strictDraws with
  | .ok (request, result, body) =>
    let peer : VerifiedPeer := ⟨strictDeployment.node.channelPublicKey, .none, []⟩
    decide ((dumps (.obj (PendingResponse.envelope peer (taskMessage request) strictDraws.responseKey strictDraws.session))).length ≤
        maxBytes ∧
      (∀ s ∈ result.effectiveScope, Clean s) ∧ (dumps (.obj body.items)).length + responseOverhead 200 ≤ maxBytes)
  | .error _ => false

theorem exists_strictCall :
    let _ := Interp.ascii
    let _ := Crypto.sized
    ∃ request result body, strictDeployment.called strictArgs strictDraws = .ok (request, result, body) ∧
      (∀ peer : VerifiedPeer, peer.publicKey = strictDeployment.node.channelPublicKey →
        (dumps (.obj (PendingResponse.envelope peer (taskMessage request) strictDraws.responseKey strictDraws.session))).length ≤
          maxBytes) ∧
      (∀ s ∈ result.effectiveScope, Clean s) ∧ BodyFitsWire 200 body := by
  intro _ _
  have hfits : strictCall_fits = true := by decide +kernel
  unfold strictCall_fits at hfits
  split at hfits
  · rename_i request result body hcalled
    obtain ⟨hshort, hscope, hbody⟩ := of_decide_eq_true hfits
    refine ⟨request, result, body, hcalled, fun peer hkey => ?_, hscope, hbody⟩
    rw [PendingResponse.envelope, hkey]
    exact hshort
  · cases hfits

theorem deployed_call_authenticated_strictArgs :
    let _ := Interp.ascii
    let _ := Crypto.sized
    ∃ hello request raw result body,
      (handshake (strictDeployment.replies.server fun _ => false) none false (hex strictDraws.nonce)).result = .ok hello ∧
      buildRequest strictArgs hello strictDraws = .ok request ∧
      encode (PendingResponse.envelope hello.peer (taskMessage request) strictDraws.responseKey strictDraws.session) =
        .ok raw ∧
      strictDeployment.node.serve request toyReadings = .ok result ∧ serializePeerResult result = .ok body ∧
      (sendTask (strictDeployment.replies.server fun _ => false) strictArgs strictDraws).result =
        .ok (Dict.set body.items (lit "response_authentication")
          (.obj (responseTo hello.peer raw 200 body.items).authentication)) := by
  intro _ _
  obtain ⟨calleeOffer, challenge, callerOffer, hserves⟩ := strictDeployment_serves
  have hdeep : TakesDepth fun _ => false := fun _ _ => rfl
  obtain ⟨request, result, body, hcalled, hsize, hscope, hfits⟩ := exists_strictCall
  obtain ⟨hello, request', hhello, hkey, hchallenge, hrequest, _, hwire, htexts, _⟩ :=
    hserves.exists_request Crypto.sized_correct hdeep
  obtain ⟨rfl, hresult, hbody⟩ := Deployment.called_ok hserves.challenged hkey hchallenge hrequest hcalled
  obtain ⟨raw, hraw⟩ := exists_encode_envelope hwire htexts (hkey ▸ clean_hex _) (hsize hello.peer hkey)
  obtain ⟨hello', request', hhello', hrequest', _, houtcome⟩ :=
    deployed_call_authenticated Crypto.sized_correct Crypto.sized_sizes strictDeployment (fun _ => false) strictArgs
      strictDraws wireGrant calleeOffer challenge callerOffer (.finite 0) (.finite 1) (.finite 2) hserves rfl hdeep
      List.length_replicate strictDraws_wait
  obtain rfl : hello = hello' := Except.ok.inj (hhello.symm.trans hhello')
  obtain rfl : request = request' := Except.ok.inj (hrequest.symm.trans hrequest')
  obtain ⟨body', hbody', hdelivered⟩ := (houtcome raw hraw).1 result hresult hscope
  obtain rfl : body = body' := Except.ok.inj (hbody.symm.trans hbody')
  exact ⟨hello, request, raw, result, body, hhello, hrequest, hraw, hresult, hbody, hdelivered hfits⟩

end Ca2a
