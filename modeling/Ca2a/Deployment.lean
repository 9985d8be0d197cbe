/-
A call over the wire: the client of `transport.client` and the server of
`transport.server`, joined by the octets that HTTP carries between them.

The client's `urllib` declares the length of what it posts, and takes for an
answer the one response a handler sends; a handler that sends none closes its
connection. Over such a wire a call comes to what `handle` gives on the very
request that the caller built (`deployed_call`): the JSON at both ends, the
query, the declared length and the bounds take no part in it, as long as what
is sent fits them. An authenticated call comes to the same
(`Ca2a.StrictDeployment`).
-/
import Ca2a.CanonicalStack
import Ca2a.ErrorContract
import Ca2a.Py.DecodeFacts
import Ca2a.RecordFile
import Ca2a.SdkBridge
import Ca2a.ServerRun

namespace Ca2a

open Py

/-! ## The connection -/

/-- What the client gets of a handler's run. -/
def replyOf (run : Serving Unit) : Reply :=
  match run.trace.findSome? sent? with
  | some (status, data) => .delivered status data
  -- `RemoteDisconnected`
  | none => .httpException (lit "Remote end closed connection without response")
where
  sent? : Event Act → Option (Int × Bytes)
    | .started (.send status data) => some (status, data)
    | _ => none

/-- The POST of these octets. -/
def posted (path : Str) (body : Bytes) : Post where
  path
  contentLength := some (decimal body.length)
  body
  ends := false

section
variable [Interp] [Crypto]

/-- A node that is served, with what it reads and draws during a call. -/
structure Deployment where
  node : PeerNode
  /-- The clock when it answers the handshake. -/
  issued : Int
  random : Bytes
  /-- The clock when it handles the task. -/
  clock : Readings
  /-- The texts too deep for the server's stack. -/
  overflows : Str → Bool

/-- The replies of the server. -/
def Deployment.replies (d : Deployment) : Replies where
  scheme := lit "http"
  channel nonce := replyOf (d.node.doGet { path := channelPath, query := lit "nonce=" ++ nonce } d.issued d.random)
  -- a message is made of texts and integers, so `json.dumps` encodes it
  task message := replyOf ((d.node.served d.clock).doPost (serverLoads d.overflows)
    (posted taskPath ((sendJson message).toOption.getD [])))
  authenticatedTask raw := replyOf ((d.node.served d.clock).doPost (serverLoads d.overflows)
    (posted authenticatedTaskPath raw))

theorem Deployment.replies_channel (d : Deployment) (nonce : Str) : d.replies.channel nonce =
    replyOf (d.node.doGet { path := channelPath, query := lit "nonce=" ++ nonce } d.issued d.random) := rfl

theorem Deployment.replies_task (d : Deployment) (message : Dict Json) : d.replies.task message =
    replyOf ((d.node.served d.clock).doPost (serverLoads d.overflows)
      (posted taskPath ((sendJson message).toOption.getD []))) := rfl

/-! ## JSON on the wire -/

omit [Crypto] in
/-- An object that one end writes and the other reads back, within a bound on its octets. -/
structure Carried (overflows : Str → Bool) (limit : Nat) (d : Dict Json) : Prop where
  printable : Printable (.obj d)
  short : (dumps (.obj d)).length ≤ limit
  shallow : overflows (dumps (.obj d)) = false

omit [Crypto] in
theorem Carried.exists_sent {overflows : Str → Bool} {limit : Nat} {d : Dict Json} (h : Carried overflows limit d) :
    ∃ data, sendJson d = .ok data ∧ 1 ≤ data.length ∧ data.length ≤ limit ∧
      ∀ {ε}, jsonLoads (ε := ε) overflows data = .ok (.obj d) := by
  obtain ⟨data, hdata, hlength⟩ := utf8?_dumps_length h.printable.noFloat
  obtain ⟨c, r, htext, _⟩ := dumps_obj_head d
  have hpositive : 1 ≤ (dumps (.obj d)).length := by
    rw [htext]
    simp
  exact ⟨data, utf8_ok_iff.mpr hdata, hlength ▸ hpositive, hlength ▸ h.short, jsonLoads_dumps h.printable h.shallow hdata⟩

omit [Crypto] in
theorem serverLoads_eq {overflows : Str → Bool} {data : Bytes} {j : Json}
    (h : jsonLoads (ε := CA2AError) overflows data = .ok j) : serverLoads overflows data = .ok j := by
  rw [serverLoads, h]
  rfl

omit [Crypto] in
theorem getJson_delivered {overflows : Str → Bool} {data : Bytes} {j : Json} (hshort : data.length ≤ maxBytes)
    (h : jsonLoads (ε := CA2AError) overflows data = .ok j) : getJson overflows (.delivered 200 data) = .ok j := by
  have hread : readBounded data = .ok data := readBounded_ok_iff.mpr ⟨hshort, rfl⟩
  simp [getJson, postAuthenticated, hread, h]

omit [Crypto] in
theorem postJson_delivered {overflows : Str → Bool} {status : Int} {data : Bytes} {j : Json}
    (hshort : data.length ≤ maxBytes) (h : jsonLoads (ε := CA2AError) overflows data = .ok j) :
    postJson overflows (.delivered status data) = .ok (status, j) := by
  have hread : readBounded data = .ok data := readBounded_ok_iff.mpr ⟨hshort, rfl⟩
  simp [postJson, postAuthenticated, hread, h]

/-! ## What a handler sends -/

omit [Interp] [Crypto] in
theorem replyOf_sent {reads : List (Event Act)} (hreads : ∀ e ∈ reads, ∃ n, e = .started (.read n) ∨ e = .returned (.read n))
    {status : Int} {data : Bytes} {rest : List (Event Act)} {result : Except ServeError Unit} :
    replyOf ⟨reads ++ .started (.send status data) :: rest, result⟩ = .delivered status data := by
  have hnone : reads.findSome? replyOf.sent? = none := by
    refine List.findSome?_eq_none_iff.mpr fun e he => ?_
    obtain ⟨n, rfl | rfl⟩ := hreads e he <;> rfl
  rw [replyOf, List.findSome?_append, hnone]
  rfl

/-- Only `canonicalize` can fail a result. -/
theorem serializePeerResult_error {result : PeerResult} {exc : CA2AError} : serializePeerResult result ≠ .error (.app exc) := by
  intro h
  rw [serializePeerResult, recordToDict, DelegationRecord.recordHash] at h
  cases hmsg : canonicalize (ε := CA2AError) result.record.body with
  | ok msg =>
    rw [hmsg] at h
    cases h
  | error e =>
    have herror := (canonicalize_spec result.record.body).of_error hmsg
    rw [hmsg] at h
    cases h
    exact herror

namespace Deployment
variable {d : Deployment}

/-- What the handler of a task sends is what the node answers. -/
theorem answerTask_eq {message : Dict Json} {status : Int} {body : JsonDict}
    (h : d.node.answer message d.clock = .ok (status, body)) {data : Bytes} (hdata : sendJson body.items = .ok data) :
    (d.node.served d.clock).answerTask message =
      ⟨[.started (.send status data), .returned (.send status data)], .ok ()⟩ := by
  unfold PeerNode.answer at h
  cases hhandle : d.node.handle message d.clock with
  | ok result =>
    rw [hhandle, ok_bind] at h
    have haccepted : (Traced.lift (σ := Act) (((d.node.served d.clock).handle message).mapError ServeError.raised)).result =
        .ok result := by
      rw [Traced.lift_result, mapError_ok_iff]
      exact hhandle
    rw [Served.answerTask, Traced.tryElse_of_ok haccepted]
    split at h
    · rename_i answered hanswered
      cases h
      rw [hanswered]
      exact sendResponse_eq hdata 200
    · rename_i hfailed
      exact absurd hfailed serializePeerResult_error
    · cases h
  | error e =>
    rw [hhandle] at h
    cases e with
    | app exc =>
      cases h
      have hrefused : (Traced.lift (σ := Act) (((d.node.served d.clock).handle message).mapError ServeError.raised)).result =
          .error (.raised (.app exc)) := by
        rw [Traced.lift_result]
        exact congrArg (Except.mapError ServeError.raised) hhandle
      rw [Served.answerTask, Traced.tryElse_of_error hrefused rfl]
      exact sendResponse_eq hdata _
    | builtin k t => cases h

end Deployment

omit [Crypto] in
/-- The declared length of a POST is that of its body. -/
theorem Served.doPost_posted [Crypto] (node : Served) (jsonLoads : Bytes → Except ServeError Json) {path : Str}
    (hpath : path = taskPath ∨ path = authenticatedTaskPath) {body : Bytes} (hne : 1 ≤ body.length)
    (hshort : body.length ≤ maxBody) :
    node.doPost jsonLoads (posted path body) = node.answerBody jsonLoads (posted path body) body.length := by
  have hdigits : ∀ c ∈ decimal body.length, isDigit c = true := fun c hc => decimal_isDigit hc
  have hlength : (decimal body.length).length ≤ maxStrDigits :=
    decimal_length_le hshort
      (lt_of_lt_of_le (by decide : maxBody < 10 ^ 16) (Nat.pow_le_pow_right (by decide) (by decide)))
  have hint : intOf (decimal body.length) = .ok (body.length : Int) := by
    rw [intOf, int?_digits (decimal_ne_nil _) hdigits, if_pos hlength, digitsVal_decimal]
  have hdecimal := isDecimal_of_ascii.mpr ⟨decimal_ne_nil _, hdigits⟩
  rw [doPost, if_neg (by simp only [posted]; tauto)]
  refine (if_neg (not_not.mpr hdecimal)).trans ?_
  rw [show (posted path body).contentLength.getD [] = decimal body.length from rfl, hint]
  change (if (body.length : Int) ≤ 0 ∨ (maxBody : Int) < body.length then _ else _) = _
  rw [if_neg (by omega), Int.toNat_natCast]

/-! ## The depth of what is sent -/

omit [Crypto] in
/-- The stack takes what is nested at most five deep. -/
def TakesDepth (overflows : Str → Bool) : Prop := ∀ j : Json, j.height ≤ 5 → overflows (dumps j) = false

omit [Interp] [Crypto] in
theorem height_credentialToDict (c : DelegationCredential) : (Json.obj (credentialToDict c)).height ≤ 2 := by
  have hscope := height_strArr (sortedStrs c.scope)
  refine Json.height_obj_le.mpr fun kv hkv => ?_
  have hvalue : kv.2.height ≤ 1 := by
    rw [credentialToDict_eq] at hkv
    simp only [List.mem_append, List.mem_cons, List.not_mem_nil, or_false, mem_optField, Option.map_eq_some_iff] at hkv
    rcases hkv with ((h | ⟨_, ⟨n, _, rfl⟩, rfl⟩) | ⟨_, ⟨n, _, rfl⟩, rfl⟩) | rfl
    · rcases h with rfl | rfl | rfl | rfl | rfl | rfl <;> first | exact hscope | simp [height_optStr, Json.height]
    all_goals simp [Json.height]
  omega

omit [Interp] [Crypto] in
theorem height_serializeChannelOffer {offer : ChannelOffer} (h : offer.Encodable) (hrole : Clean offer.report.role)
    (challenge : Option Str) : (Json.obj (serializeChannelOffer offer challenge)).height ≤ 2 := by
  have hattestation : (Json.obj (attestationItems offer.report)).height ≤ 1 := by
    refine Json.height_obj_le.mpr fun kv hkv => ?_
    obtain ⟨_, s, hs, _⟩ := attestationItems_texts h hrole kv hkv
    rw [hs, height_str]
  refine Json.height_obj_le.mpr fun kv hkv => ?_
  rw [serializeChannelOffer] at hkv
  simp only [List.mem_append, List.mem_cons, List.not_mem_nil, or_false, mem_optField, Option.map_eq_some_iff] at hkv
  rcases hkv with (rfl | rfl) | ⟨_, ⟨s, _, rfl⟩, rfl⟩
  · simp [height_str]
  · simpa using hattestation
  · simp [height_str]

omit [Interp] [Crypto] in
/-- What the metadata of a message holds are the fields of its request. -/
theorem fieldsOf_of_mem {r : PeerRequest} {kv : Str × Json} (h : kv ∈ writeFields r []) :
    Dict.get? (fieldsOf r) kv.1 = some (some kv.2) := by
  have hnodup : (Dict.keys (writeFields r [])).Nodup := (Json.wf_obj.mp (@wf_writeFields r [] (by simp [Dict.keys]))).1
  have hget := Dict.get?_of_mem hnodup h
  rw [get?_writeFields, Dict.get?_nil] at hget
  cases hfield : Dict.get? (fieldsOf r) kv.1 with
  | none =>
    rw [hfield] at hget
    cases hget
  | some o =>
    rw [hfield] at hget
    exact congrArg some hget

omit [Interp] [Crypto] in
theorem canonical_taskMessage {r : PeerRequest} (hr : r.WireValid) (h : r.Encodable) :
    Canonical (.obj (taskMessage r).items) := by
  have hmetadata : Canonical (.obj (writeFields r [])) := by
    refine canonical_obj.mpr fun kv hkv => ?_
    obtain ⟨hkey, hvalue, _⟩ := canonical_fieldsOf hr h (fieldsOf_of_mem hkv)
    exact ⟨hkey, hvalue⟩
  exact canonical_obj.mpr fun kv hkv => by
    obtain rfl := List.mem_singleton.mp hkv
    exact ⟨clean_lit _, hmetadata⟩

omit [Interp] [Crypto] in
theorem height_taskMessage {r : PeerRequest} (hr : r.WireValid) (h : r.Encodable) :
    (Json.obj (taskMessage r).items).height ≤ 5 := by
  have hchain : (Json.arr (r.chain.map fun c => .obj (credentialToDict c))).height ≤ 3 := by
    refine Json.height_arr_le.mpr fun x hx => ?_
    obtain ⟨c, _, rfl⟩ := List.mem_map.mp hx
    have := height_credentialToDict c
    omega
  have htexts : ∀ d : Dict Json, (∀ kv ∈ d, kv.2.height = 0) → (Json.obj d).height ≤ 1 := fun d hd =>
    Json.height_obj_le.mpr fun kv hkv => by rw [hd kv hkv]
  have hmetadata : (Json.obj (writeFields r [])).height ≤ 4 := by
    refine Json.height_obj_le.mpr fun kv hkv => ?_
    have hvalue : kv.2.height ≤ 3 := by
      have hmem := Dict.get?_mem (fieldsOf_of_mem hkv)
      simp only [fieldsOf, List.mem_cons, Prod.mk.injEq, List.not_mem_nil, or_false] at hmem
      rcases hmem with ⟨_, hv⟩ | ⟨_, hv⟩ | ⟨_, hv⟩ | ⟨_, hv⟩ | ⟨_, hv⟩ | ⟨_, hv⟩ | ⟨_, hv⟩ | ⟨_, hv⟩
      · rw [Option.some.inj hv]
        exact hchain
      · simp [Option.some.inj hv, height_str]
      · simp [Option.some.inj hv, height_str]
      · simp [Option.some.inj hv, height_optStr]
      · obtain ⟨b, _, hb⟩ := Option.map_eq_some_iff.mp hv.symm
        simp [← hb, height_str]
      · obtain ⟨offer, hoffer, ho⟩ := Option.map_eq_some_iff.mp hv.symm
        have := height_serializeChannelOffer (h.callerOffer offer hoffer) (clean_role (hr.callerOffer offer hoffer).role) none
        rw [← ho]
        omega
      · obtain ⟨proof, _, hp⟩ := Option.map_eq_some_iff.mp hv.symm
        have := htexts proof.toDict (by simp [HolderProof.toDict, height_str])
        rw [← hp]
        omega
      · obtain ⟨possession, _, hp⟩ := Option.map_eq_some_iff.mp hv.symm
        have := htexts possession.toDict (by simp [CallerPossession.toDict, height_str])
        rw [← hp]
        omega
    omega
  refine Json.height_obj_le.mpr fun kv hkv => ?_
  obtain rfl := List.mem_singleton.mp hkv
  exact Nat.succ_le_succ hmetadata

/-! ## What a node answers -/

omit [Interp] [Crypto] in
theorem height_recordItems (record : DelegationRecord) : ∀ kv ∈ recordItems record, kv.2.height ≤ 1 := by
  intro kv hkv
  have hscope := height_strArr (sortedStrs record.scope)
  have hoptional : ∀ {k : Str} {o : Option Json}, (∀ j ∈ o, j.height ≤ 1) → kv ∈ optField k o → kv.2.height ≤ 1 := by
    intro k o ho hmem
    obtain ⟨j, hj, rfl⟩ := mem_optField.mp hmem
    exact ho j hj
  have hplain : ∀ {o : Option Str}, ∀ j ∈ o.map Json.str, j.height ≤ 1 := by
    intro o j hj
    obtain ⟨s, _, rfl⟩ := Option.map_eq_some_iff.mp hj
    simp [height_str]
  change kv ∈ _ ++ _ ++ _ ++ _ ++ _ at hkv
  simp only [List.mem_append, or_assoc] at hkv
  rcases hkv with h | h | h | h | h
  · simp only [List.mem_cons, List.not_mem_nil, or_false] at h
    rcases h with rfl | rfl | rfl | rfl | rfl | rfl <;> first | exact hscope | simp [height_str, height_optStr]
  · refine hoptional (fun j hj => ?_) h
    split at hj
    · cases hj
    · cases hj
      simp [height_str]
  · exact hoptional hplain h
  · refine hoptional (fun j hj => ?_) h
    obtain ⟨scope, _, rfl⟩ := Option.map_eq_some_iff.mp hj
    exact height_strArr _
  · exact hoptional hplain h

/-- What the answer to an accepted call is made of. -/
theorem serializePeerResult_fits {result : PeerResult} {body : JsonDict} (h : serializePeerResult result = .ok body)
    (heffective : ∀ s ∈ result.effectiveScope, Clean s) (hgranted : Clean result.grantedCapability) :
    Canonical (.obj body.items) ∧ (Json.obj body.items).height ≤ 5 := by
  simp only [serializePeerResult, bind_ok_iff, Except.ok.injEq] at h
  obtain ⟨record, hwire, rfl⟩ := h
  obtain ⟨hash, hhash, hitems⟩ := recordToDict_ok_iff.mp hwire
  obtain ⟨msg, hmsg, _⟩ := recordHash_ok hhash
  have hwritten : Written result.record (.obj record.items) := ⟨record.items, rfl, .inr ⟨record, hwire, List.Perm.refl _⟩⟩
  have hrecord : Canonical (.obj record.items) := (hwritten.printable (canonicalize_ok_iff.mp hmsg).1).1
  have hdepth : (Json.obj record.items).height ≤ 2 := by
    refine Json.height_obj_le.mpr fun kv hkv => ?_
    rw [hitems] at hkv
    rcases Dict.mem_set hkv with hkv | hvalue
    · exact Nat.succ_le_succ (height_recordItems _ kv hkv)
    · simp [hvalue, height_str]
  have hattestation : Clean result.callerAttestation.text := by cases result.callerAttestation <;> exact clean_lit _
  have hscope := height_strArr (sortedStrs result.effectiveScope)
  constructor
  · simp only [canonical_obj, List.forall_mem_cons, canonical_bool, canonical_str, canonical_strArr]
    refine ⟨⟨clean_lit _, trivial⟩, ⟨clean_lit _, ?_⟩, ⟨clean_lit _, hgranted⟩, ⟨clean_lit _, hattestation⟩, ⟨clean_lit _, ?_⟩,
      by simp⟩
    · simpa using heffective
    · exact canonical_obj.mp hrecord
  · refine Json.height_obj_le.mpr fun kv hkv => ?_
    simp only [List.mem_cons, List.not_mem_nil, or_false] at hkv
    rcases hkv with rfl | rfl | rfl | rfl | rfl
    · simp [Json.height]
    · dsimp only
      omega
    · simp [height_str]
    · simp [height_str]
    · dsimp only
      omega

omit [Interp] [Crypto] in
theorem serializeError_fits {exc : CA2AError} (hmessage : Clean exc.message) (hdetail : ∀ t ∈ exc.detail, Clean t) :
    Canonical (.obj (serializeError exc).items) ∧ (Json.obj (serializeError exc).items).height ≤ 5 := by
  have hstatus := exc.cls.httpStatus_range
  have hcode : Clean exc.cls.code := by cases exc.cls <;> exact clean_lit _
  have hsafe : (exc.cls.httpStatus : Int).natAbs ≤ maxSafeInteger := by
    have : 599 ≤ maxSafeInteger := by decide
    omega
  constructor
  · simpa [serializeError, hcode, hmessage] using And.intro hdetail hsafe
  · refine Json.height_obj_le.mpr fun kv hkv => ?_
    obtain rfl := List.mem_singleton.mp hkv
    have : (Json.obj [(lit "code", .str exc.cls.code), (lit "message", .str exc.message),
        (lit "detail", optStr exc.detail), (lit "http_status", .int exc.cls.httpStatus)]).height ≤ 1 :=
      Json.height_obj_le.mpr (by simp [height_optStr, Json.height])
    dsimp only
    omega

/-! ## The handshake -/

omit [Interp] [Crypto] in
/-- The nonce a client draws is the one the handshake is about. -/
theorem nonce?_hex {nonce : Bytes} (hne : nonce ≠ []) (hlength : nonce.length ≤ 128) :
    Get.nonce? { path := channelPath, query := lit "nonce=" ++ hex nonce } = some (hex nonce) := by
  have hother : ∀ c, isLowerHex 1 [c] = false → ∀ x ∈ hex nonce, x ≠ c := by
    intro c hc x hx hxc
    exact not_mem_hex hc nonce (hxc ▸ hx)
  have hhex : hex nonce ≠ [] := by
    rw [← List.length_pos_iff, hex_length]
    have := List.length_pos_iff.mpr hne
    omega
  have hname : ∀ c ∈ lit "nonce", c ≠ cp '=' ∧ c ≠ cp '&' ∧ c ≠ cp '+' ∧ c ≠ cp '%' := by simp [lit]
  have hquery : queryValues 1 (lit "nonce" ++ cp '=' :: hex nonce) (lit "nonce") = some [hex nonce] :=
    queryValues_plain hname (fun c hc => ⟨hother (cp '&') (by decide) c hc, hother (cp '+') (by decide) c hc,
      hother (cp '%') (by decide) c hc⟩) hhex
  have hbound : ¬ (hex nonce = [] ∨ maxNonce < (hex nonce).length) := by
    rw [hex_length, maxNonce]
    exact not_or.mpr ⟨hhex, by omega⟩
  rw [Get.nonce?, show lit "nonce=" ++ hex nonce = lit "nonce" ++ cp '=' :: hex nonce from rfl, hquery]
  exact if_neg hbound

omit [Interp] [Crypto] in
theorem canonical_greeting {offer : ChannelOffer} (h : offer.Encodable) (hrole : Clean offer.report.role) {challenge : Str}
    (hchallenge : Clean challenge) : Canonical (.obj (serializeChannelOffer offer (some challenge))) := by
  have heq : serializeChannelOffer offer (some challenge) =
      serializeChannelOffer offer ++ [(lit "challenge", .str challenge)] := by
    simp [serializeChannelOffer, optField]
  rw [heq, canonical_obj]
  intro kv hkv
  rcases List.mem_append.mp hkv with hkv | hkv
  · exact canonical_obj.mp (canonical_serializeChannelOffer h hrole).1 kv hkv
  · rw [List.mem_singleton.mp hkv]
    exact ⟨clean_lit _, canonical_str.mpr hchallenge⟩

namespace Deployment
variable {d : Deployment} {overflows : Str → Bool}

/-- **The handshake arrives.** -/
theorem answersFor {nonce : Bytes} (hne : nonce ≠ []) (hlength : nonce.length ≤ 128) {offer : ChannelOffer}
    {challenge : Str} (hoffer : d.node.offer (hex nonce) = .ok offer)
    (hchallenge : d.node.issueChallenge d.issued d.random = .ok challenge) (hprovider : d.node.provider.Faithful)
    (htexts : offer.Encodable) (hdeep : TakesDepth overflows)
    (hshort : (dumps (.obj (serializeChannelOffer offer (some challenge)))).length ≤ maxBytes) :
    AnswersFor (d.replies.server overflows) d.node (hex nonce) d.issued d.random offer challenge where
  scheme := List.mem_cons_self
  offered := hoffer
  challenged := hchallenge
  answer := by
    have hrole : Clean offer.report.role := clean_role (offerFor_of_attest hprovider (by decide) hoffer).wire.role
    have hcanonical := canonical_greeting htexts hrole (issueChallenge_clean hchallenge).1
    have hcarried : Carried overflows maxBytes (serializeChannelOffer offer (some challenge)) :=
      ⟨hcanonical.printable (wf_serializeChannelOffer offer _), hshort,
        hdeep _ (le_trans (height_serializeChannelOffer htexts hrole _) (by decide))⟩
    obtain ⟨data, hdata, _, hbound, hread⟩ := hcarried.exists_sent
    have hnonce : (Get.mk channelPath (lit "nonce=" ++ hex nonce)).nonce? = some (hex nonce) := nonce?_hex hne hlength
    have hgreeted := PeerNode.doGet_eq rfl hnonce hoffer hchallenge hdata
    have hreply : d.replies.channel (hex nonce) = .delivered 200 data := by
      rw [replies_channel, hgreeted]
      exact @replyOf_sent [] (by simp) _ _ _ _
    rw [Replies.server_channel, hreply]
    exact getJson_delivered hbound hread

/-! ## The task -/

/-- What a handler of a task does is read the message and what it does with it. -/
theorem task_eq {message : JsonDict} (hmessage : Carried d.overflows maxBody message.items) :
    ∃ n, d.replies.task message.items =
      replyOf ⟨[.started (.read n), .returned (.read n)] ++ ((d.node.served d.clock).answerTask message.items).trace,
        ((d.node.served d.clock).answerTask message.items).result⟩ := by
  obtain ⟨data, hdata, hne, hbound, hread⟩ := hmessage.exists_sent
  refine ⟨data.length, ?_⟩
  have hposted : (sendJson message.items).toOption.getD [] = data := by
    rw [hdata]
    rfl
  have hbody : (posted taskPath data).read data.length = .ok data := by
    exact (if_pos (le_refl data.length)).trans (congrArg Except.ok List.take_length)
  have hloads : serverLoads d.overflows data = .ok (.obj message.items) := serverLoads_eq hread
  have hpath : (posted taskPath data).path ≠ authenticatedTaskPath :=
    (by decide : taskPath ≠ authenticatedTaskPath)
  rw [replies_task, hposted, Served.doPost_posted _ _ (.inl rfl) hne hbound, Served.answerBody, if_neg hpath, hbody]
  have hparsed : (do
      let raw ← Traced.step (Act.read data.length) (.ok data)
      Traced.lift (serverLoads d.overflows raw)) =
        (⟨[.started (.read data.length), .returned (.read data.length)], .ok (.obj message.items)⟩ : Serving Json) := by
    rw [Traced.step_bind]
    simp only [hloads]
    rfl
  rw [hparsed, Traced.tryElse_of_ok rfl]

theorem task_delivered {message : JsonDict} (hmessage : Carried d.overflows maxBody message.items) {status : Int}
    {body : JsonDict} (hanswer : d.node.answer message.items d.clock = .ok (status, body)) {data : Bytes}
    (hdata : sendJson body.items = .ok data) : d.replies.task message.items = .delivered status data := by
  obtain ⟨n, htask⟩ := task_eq hmessage
  rw [htask, answerTask_eq hanswer hdata]
  exact replyOf_sent (by simp)

/-- An exception that no handler takes closes the connection. -/
theorem task_dropped {message : JsonDict} (hmessage : Carried d.overflows maxBody message.items) {k : ExcKind} {t : Str}
    (hhandle : d.node.handle message.items d.clock = .error (.builtin k t)) :
    ∃ text, d.replies.task message.items = .httpException text := by
  obtain ⟨n, htask⟩ := task_eq hmessage
  have hraised : (d.node.served d.clock).handle message.items = .error (.builtin k t) := hhandle
  rw [htask, Served.answerTask, hraised]
  exact ⟨_, rfl⟩

end Deployment

/-- The end of a call without an authenticated response. -/
theorem sendTask_legacy {server : Server} (hscheme : server.scheme ∈ allowedSchemes) {args : TaskArgs} {draws : Draws}
    {hello : Handshake}
    (hhello : (handshake server args.verifier args.requireHardware (hex draws.nonce)).result = .ok hello)
    {request : PeerRequest} (hrequest : buildRequest args hello draws = .ok request)
    (hlegacy : args.requireAuthenticatedResponse = false) :
    (sendTask server args draws).result =
      (server.task (taskMessage request).items).mapError .raised >>= fun answer => legacyAnswer answer.1 answer.2 := by
  have hallowed : requireHttpUrl server.scheme = .ok () := if_neg (not_not.mpr hscheme)
  simp only [sendTask, Traced.bind_result, hhello, ok_bind, Run.of_result, hrequest, hlegacy, Bool.false_eq_true, if_false,
    sendLegacy, hallowed, raised_ok, Run.exchange_result, Traced.lift_result]

/-! ## The call -/

omit [Crypto] in
/-- What a caller without an authenticated response makes of a delivered answer. -/
theorem legacyAnswer_success {body : JsonDict} (h : Dict.get? body.items (lit "response_authentication") = none) :
    legacyAnswer 200 (.obj body.items) = .ok body.items := by
  have herase : Dict.erase body.items (lit "response_authentication") = body.items := by
    refine List.filter_eq_self.mpr fun kv hkv => decide_eq_true fun hk => ?_
    exact Dict.get?_eq_none_iff.mp h (List.mem_map.mpr ⟨kv, hkv, hk⟩)
  simp [legacyAnswer, withoutResponseAuthentication, herase, Except.mapError]

omit [Crypto] in
theorem legacyAnswer_error (exc : CA2AError) :
    legacyAnswer exc.cls.httpStatus (.obj (serializeError exc).items) =
      .error (.peerError
        { message := exc.message, detail := optStr exc.detail, code := exc.cls.code, httpStatus := .int exc.cls.httpStatus }) := by
  have hstatus : (exc.cls.httpStatus : Int) ≠ 200 := by
    have := exc.cls.httpStatus_range
    omega
  rw [legacyAnswer, if_pos hstatus]
  simp [serializeError, getDefault, Dict.get?_cons, rehydrateError, Except.mapError, Json.text, Json.str?]

namespace Deployment
variable {d : Deployment} {overflows : Str → Bool} {args : TaskArgs} {draws : Draws} {hello : Handshake}
  {request : PeerRequest}

/-- **An answer of the node is what a legacy call comes to.** -/
theorem call_answered
    (hhello : (handshake (d.replies.server overflows) args.verifier args.requireHardware (hex draws.nonce)).result = .ok hello)
    (hrequest : buildRequest args hello draws = .ok request) (hlegacy : args.requireAuthenticatedResponse = false)
    (hmessage : Carried d.overflows maxBody (taskMessage request).items) {status : Int} {body : JsonDict}
    (hanswer : d.node.answer (taskMessage request).items d.clock = .ok (status, body))
    (hbody : Carried overflows maxBytes body.items) :
    (sendTask (d.replies.server overflows) args draws).result = legacyAnswer status (.obj body.items) := by
  obtain ⟨data, hdata, _, hbound, hread⟩ := hbody.exists_sent
  rw [sendTask_legacy List.mem_cons_self hhello hrequest hlegacy, Replies.server_task, task_delivered hmessage hanswer hdata,
    postJson_delivered hbound hread]
  rfl

/-- An exception of the node that is none of the runtime's is a lost connection. -/
theorem call_dropped
    (hhello : (handshake (d.replies.server overflows) args.verifier args.requireHardware (hex draws.nonce)).result = .ok hello)
    (hrequest : buildRequest args hello draws = .ok request) (hlegacy : args.requireAuthenticatedResponse = false)
    (hmessage : Carried d.overflows maxBody (taskMessage request).items) {k : ExcKind} {t : Str}
    (hhandle : d.node.handle (taskMessage request).items d.clock = .error (.builtin k t)) :
    ∃ text, (sendTask (d.replies.server overflows) args draws).result = .error (.raised (.builtin .httpException text)) := by
  obtain ⟨text, hdropped⟩ := task_dropped hmessage hhandle
  refine ⟨text, ?_⟩
  rw [sendTask_legacy List.mem_cons_self hhello hrequest hlegacy, Replies.server_task, hdropped]
  rfl

end Deployment

/-- The texts of an honest request can be encoded. -/
theorem encodable_of_presents {args : TaskArgs} {leaf : DelegationCredential} (ha : args.Honest leaf)
    (hchain : ∀ c ∈ args.chain, Canonical c.body) {key : Crypto.XKey} {challenge : Str} (hchallenge : Clean challenge)
    {offer : Option ChannelOffer} (hoffer : ∀ o ∈ offer, o.Encodable) {request : PeerRequest}
    (hr : Presents args key leaf challenge offer request) : request.Encodable where
  chain := hr.chain ▸ hchain
  requestedCapability := hr.capability ▸ ha.capability.1
  recordId := hr.recordId ▸ ha.recordId.1
  parentRecordHash := hr.parentRecordHash ▸ ha.parentRecordHash
  callerOffer := hr.callerOffer ▸ hoffer
  holderProof := by
    obtain ⟨proof, hproof, rfl, _, hsigned⟩ := hr.holderProof
    intro p hp
    obtain rfl : proof = p := Option.some.inj (hproof.symm.trans hp)
    obtain ⟨_, _, _, _, _, hhex, _⟩ := hsigned
    exact ⟨hchallenge, fromHex?_clean hhex⟩
  callerPossession := by
    intro p hp
    have hpossession := hr.possession
    cases offer with
    | none => cases hpossession.symm.trans hp
    | some o =>
      obtain ⟨q, hq, _, _, hverify⟩ := hpossession
      obtain rfl : q = p := Option.some.inj (hq.symm.trans hp)
      rw [verifyCallerPossession_ok_iff (requestTranscript_callee _ _ _ _) (requestTranscript_caller _ _ _ _)] at hverify
      obtain ⟨mac, hmac, heq⟩ := hverify
      obtain rfl := Option.some.inj heq
      exact ⟨clean_lit _, clean_of_possessionMac hmac⟩

/-- What the two ends of a call over the wire are assumed to be: the node attests and issues a challenge, the caller's
verifier accepts the report, and the caller holds the leaf of its chain. Nothing is assumed of what the node decides. -/
structure Deployment.Serves (d : Deployment) (args : TaskArgs) (draws : Draws) (leaf : DelegationCredential)
    (calleeOffer : ChannelOffer) (challenge : Str) (callerOffer : Option ChannelOffer) : Prop where
  nonce : draws.nonce.length = 16
  sealNonce : draws.sealNonce.length = 12
  offered : d.node.offer (hex draws.nonce) = .ok calleeOffer
  challenged : d.node.issueChallenge d.issued d.random = .ok challenge
  provider : d.node.provider.Faithful
  calleeTexts : calleeOffer.Encodable
  verifier : VerifierAccepts args.verifier calleeOffer
  hardware : args.requireHardware = true → calleeOffer.report.platform ≠ softwareOnly
  honest : args.Honest leaf
  chain : ∀ c ∈ args.chain, Canonical c.body
  callerProvider : ∀ provider ∈ args.callerProvider, provider.Faithful
  offers : args.offers draws challenge = .ok callerOffer
  callerTexts : ∀ o ∈ callerOffer, o.Encodable
  greeting : (dumps (.obj (serializeChannelOffer calleeOffer (some challenge)))).length ≤ maxBytes

namespace Deployment
variable {d : Deployment} {overflows : Str → Bool} {args : TaskArgs} {draws : Draws} {leaf : DelegationCredential}
  {calleeOffer : ChannelOffer} {challenge : Str} {callerOffer : Option ChannelOffer}

/-- The request that a served call makes. -/
theorem Serves.exists_request (hc : Crypto.Correct) (hs : d.Serves args draws leaf calleeOffer challenge callerOffer)
    (hdeep : TakesDepth overflows) :
    ∃ hello request,
      (handshake (d.replies.server overflows) args.verifier args.requireHardware (hex draws.nonce)).result = .ok hello ∧
      hello.peer.publicKey = d.node.channelPublicKey ∧ hello.challenge = some challenge ∧
      buildRequest args hello draws = .ok request ∧ Presents args d.node.privateKey leaf challenge callerOffer request ∧
      request.WireValid ∧ request.Encodable ∧ request.chain ≠ [] := by
  obtain ⟨hclean, hne⟩ := issueChallenge_clean hs.challenged
  have hnonce : draws.nonce ≠ [] := by
    intro h
    have := hs.nonce
    rw [h] at this
    cases this
  have hoffer := offerFor_of_offers hs.callerProvider hs.offers
  have hanswers := answersFor hnonce (by rw [hs.nonce]; decide) hs.offered hs.challenged hs.provider hs.calleeTexts hdeep
    hs.greeting
  obtain ⟨hello, hhello, hkey, hchallenge⟩ := exists_handshake hanswers hs.provider hs.verifier hs.hardware
  obtain ⟨hcredential, _, hsubject, _⟩ :=
    DelegationCredential.canonical_body_iff.mp (hs.chain leaf (List.mem_of_getLast? hs.honest.leaf_eq))
  obtain ⟨request, hrequest, hpresents⟩ := exists_buildRequest hc hs.honest ⟨hcredential, hsubject⟩ hs.sealNonce hkey
    hchallenge hclean hs.offers hoffer
  refine ⟨hello, request, hhello, hkey, hchallenge, hrequest, hpresents,
    wireValid_of_presents hs.honest hne (fun o ho => (hoffer o ho).wire) hpresents,
    encodable_of_presents hs.honest hs.chain hclean hs.callerTexts hpresents, fun he => ?_⟩
  have hleaf := hs.honest.leaf_eq
  rw [← hpresents.chain, he] at hleaf
  cases hleaf

theorem handle_taskMessage {request : PeerRequest} (hwire : request.WireValid) (hchain : request.chain ≠ []) :
    d.node.handle (taskMessage request).items d.clock = d.node.serve request d.clock := by
  simp only [PeerNode.handle, parse_taskMessage hwire hchain, ok_bind]

/-- What a node accepts of an encodable request is written. -/
theorem exists_answer {request : PeerRequest} (hwire : request.WireValid) (hchain : request.chain ≠ [])
    (htexts : request.Encodable) {result : PeerResult}
    (hresult : d.node.serve request d.clock = .ok result)
    (heffective : ∀ s ∈ result.effectiveScope, Clean s) :
    ∃ body, serializePeerResult result = .ok body ∧
      d.node.answer (taskMessage request).items d.clock = .ok (200, body) ∧ Canonical (.obj body.items) ∧
      (Json.obj body.items).height ≤ 5 ∧ Dict.get? body.items (lit "response_authentication") = none := by
  obtain ⟨revocations, _, hrun⟩ := PeerNode.serve_ok_iff.mp hresult
  obtain ⟨leaf, haccepted⟩ := handlePeerRequest_ok_iff.mp hrun
  have hleaf := htexts.chain leaf (List.mem_of_getLast? haccepted.leaf_eq)
  have hrecord : Canonical result.record.body := by
    rw [haccepted.record]
    exact canonical_recordFor hleaf htexts.recordId htexts.parentRecordHash _
  obtain ⟨hash, hhash, _⟩ := DelegationRecord.exists_recordHash hrecord
  obtain ⟨body, hbody⟩ := serializePeerResult_of_recordHash hhash
  obtain ⟨hcanonical, hheight⟩ := serializePeerResult_fits hbody heffective
    (haccepted.granted ▸ htexts.requestedCapability)
  refine ⟨body, hbody, ?_, hcanonical, hheight, ?_⟩
  · rw [PeerNode.answer, handle_taskMessage hwire hchain, hresult, ok_bind, hbody]
  · simp only [serializePeerResult, bind_ok_iff, Except.ok.injEq] at hbody
    obtain ⟨_, _, rfl⟩ := hbody
    simp [Dict.get?_cons]

end Deployment

/-- **The wire is transparent.** A legacy call to a node that is served comes to what the node's `handle_peer_request`
gives on the request the caller built: its result, in the form of `serialize_peer_result`; its error, with the message,
the detail, the code and the status; or a lost connection, where it raises what nothing catches. -/
theorem deployed_call (hc : Crypto.Correct) (d : Deployment) (overflows : Str → Bool) (args : TaskArgs) (draws : Draws)
    (leaf : DelegationCredential) (calleeOffer : ChannelOffer) (challenge : Str) (callerOffer : Option ChannelOffer)
    (hs : d.Serves args draws leaf calleeOffer challenge callerOffer) (hlegacy : args.requireAuthenticatedResponse = false)
    (hclient : TakesDepth overflows) (hserver : TakesDepth d.overflows) :
    ∃ hello request,
      (handshake (d.replies.server overflows) args.verifier args.requireHardware (hex draws.nonce)).result = .ok hello ∧
      buildRequest args hello draws = .ok request ∧ Presents args d.node.privateKey leaf challenge callerOffer request ∧
      ((dumps (.obj (taskMessage request).items)).length ≤ maxBody →
        (∀ result, d.node.serve request d.clock = .ok result →
          (∀ s ∈ result.effectiveScope, Clean s) →
          ∃ body, serializePeerResult result = .ok body ∧ ((dumps (.obj body.items)).length ≤ maxBytes →
            (sendTask (d.replies.server overflows) args draws).result = .ok body.items)) ∧
        (∀ exc, d.node.serve request d.clock = .error (.app exc) →
          Clean exc.message → (∀ t ∈ exc.detail, Clean t) →
          (dumps (.obj (serializeError exc).items)).length ≤ maxBytes →
          (sendTask (d.replies.server overflows) args draws).result =
            .error (.peerError
              { message := exc.message, detail := optStr exc.detail, code := exc.cls.code,
                httpStatus := .int exc.cls.httpStatus })) ∧
        ∀ k t, d.node.serve request d.clock = .error (.builtin k t) →
          ∃ text, (sendTask (d.replies.server overflows) args draws).result =
            .error (.raised (.builtin .httpException text))) := by
  obtain ⟨hello, request, hhello, _, _, hrequest, hpresents, hwire, htexts, hchain⟩ := hs.exists_request hc hclient
  have hhandle := Deployment.handle_taskMessage (d := d) hwire hchain
  refine ⟨hello, request, hhello, hrequest, hpresents, fun hsize => ?_⟩
  have hmessage : Carried d.overflows maxBody (taskMessage request).items :=
    ⟨(canonical_taskMessage hwire htexts).printable (taskMessage request).wf, hsize, hserver _ (height_taskMessage hwire htexts)⟩
  refine ⟨fun result hresult heffective => ?_, fun exc hexc htext hdetail hshort => ?_, fun k t hraised => ?_⟩
  · obtain ⟨body, hbody, hanswer, hcanonical, hheight, hreserved⟩ :=
      Deployment.exists_answer hwire hchain htexts hresult heffective
    refine ⟨body, hbody, fun hshort => ?_⟩
    rw [Deployment.call_answered hhello hrequest hlegacy hmessage hanswer
      ⟨hcanonical.printable body.wf, hshort, hclient _ hheight⟩]
    exact legacyAnswer_success hreserved
  · have hanswer : d.node.answer (taskMessage request).items d.clock = .ok (exc.cls.httpStatus, serializeError exc) := by
      rw [PeerNode.answer, hhandle, hexc]
      rfl
    obtain ⟨hcanonical, hheight⟩ := serializeError_fits htext hdetail
    rw [Deployment.call_answered hhello hrequest hlegacy hmessage hanswer
      ⟨hcanonical.printable (serializeError exc).wf, hshort, hclient _ hheight⟩]
    exact legacyAnswer_error exc
  · exact Deployment.call_dropped hhello hrequest hlegacy hmessage (hhandle.trans hraised)

/-! ### A call of known inputs -/

/-- The request depends on the handshake through the key and the challenge it came to. -/
theorem buildRequest_congr {hello hello' : Handshake} (hkey : hello.peer.publicKey = hello'.peer.publicKey)
    (hchallenge : hello.challenge = hello'.challenge) (args : TaskArgs) (draws : Draws) :
    buildRequest args hello draws = buildRequest args hello' draws := by
  have hseal : sealToPeer hello.peer = sealToPeer hello'.peer := by
    funext sealKey nonce payload
    simp only [sealToPeer, hkey]
  simp only [buildRequest, hseal, TaskArgs.holderParams, TaskArgs.transcript, hkey, hchallenge]

namespace Deployment

/-- What a call comes to at the node, with nothing sent: the request, the result and its form. -/
def called (d : Deployment) (args : TaskArgs) (draws : Draws) : Result (PeerRequest × PeerResult × JsonDict) := do
  let challenge ← d.node.issueChallenge d.issued d.random
  let peer : VerifiedPeer := { publicKey := d.node.channelPublicKey, assurance := .none, measurement := [] }
  let request ← buildRequest args { peer, challenge := some challenge } draws
  let result ← d.node.serve request d.clock
  let body ← serializePeerResult result
  .ok (request, result, body)

theorem called_ok {d : Deployment} {args : TaskArgs} {draws : Draws} {challenge : Str} {hello : Handshake}
    {request request' : PeerRequest} {result : PeerResult} {body : JsonDict}
    (hissued : d.node.issueChallenge d.issued d.random = .ok challenge)
    (hkey : hello.peer.publicKey = d.node.channelPublicKey) (hchallenge : hello.challenge = some challenge)
    (hrequest : buildRequest args hello draws = .ok request) (h : d.called args draws = .ok (request', result, body)) :
    request' = request ∧ d.node.serve request d.clock = .ok result ∧ serializePeerResult result = .ok body := by
  simp only [called, hissued, ok_bind, bind_ok_iff, Except.ok.injEq, Prod.mk.injEq] at h
  obtain ⟨built, hbuilt, result', hresult, body', hbody, rfl, rfl, rfl⟩ := h
  rw [← buildRequest_congr hkey hchallenge, hrequest] at hbuilt
  obtain rfl : request = built := Except.ok.inj hbuilt
  exact ⟨rfl, hresult, hbody⟩

end Deployment

end

/-! ### A call in the toy model -/

/-- `agreedNode`, served. -/
def agreedDeployment : @Deployment Interp.ascii Crypto.agreed :=
  let _ := Interp.ascii
  let _ := Crypto.agreed
  { node := agreedNode
    issued := 0
    random := [1]
    clock := toyReadings
    overflows := fun _ => false }

/-- The length of its greeting, when there is one. -/
def agreedGreeting : Option Nat :=
  let _ := Interp.ascii
  let _ := Crypto.agreed
  match agreedNode.offer (hex toyDraws.nonce), agreedNode.issueChallenge 0 [1] with
  | .ok offer, .ok challenge => some (dumps (.obj (serializeChannelOffer offer (some challenge)))).length
  | _, _ => none

theorem agreedGreeting_short : ∃ n ∈ agreedGreeting, n ≤ maxBytes := by
  have h : agreedGreeting.any (· ≤ maxBytes) = true := by decide +kernel
  obtain ⟨n, hn, hle⟩ := (Option.any_eq_true _ _).mp h
  exact ⟨n, hn, of_decide_eq_true hle⟩

theorem agreedDeployment_serves :
    let _ := Interp.ascii
    let _ := Crypto.agreed
    ∃ calleeOffer challenge callerOffer,
      agreedDeployment.Serves (readArgsWith false) liveDraws wireGrant calleeOffer challenge callerOffer := by
  intro _ _
  have hissued : (agreedNode.issueChallenge 0 [1]).isOk = true := by decide +kernel
  obtain ⟨challenge, hchallenge⟩ := exists_of_isOk hissued
  obtain ⟨n, hn, hshort⟩ := agreedGreeting_short
  rw [agreedGreeting, hchallenge] at hn
  obtain rfl := Option.some.inj hn
  have hprovider : ∀ provider ∈ (readArgsWith false).callerProvider, provider.Faithful := by
    intro provider h
    obtain rfl : softwareProvider = provider := Option.some.inj h
    exact softwareProvider_faithful
  have hclean := (issueChallenge_clean hchallenge).1
  have hsigned : wireGrant.Signed := wireGrant_signed
  refine ⟨_, challenge, _,
    { nonce := rfl
      sealNonce := rfl
      offered := rfl
      challenged := hchallenge
      provider := softwareProvider_faithful
      calleeTexts := ⟨clean_hex _, clean_lit _, clean_lit _, clean_hex _, clean_hex _⟩
      verifier := fun h => absurd rfl h
      hardware := by simp [readArgsWith, readArgs]
      honest :=
        { wire := readArgs_honest.wire
          leaf_eq := rfl
          holds := rfl
          capability := readArgs_honest.capability
          recordId := readArgs_honest.recordId
          parentRecordHash := readArgs_honest.parentRecordHash }
      chain := fun c hc => by
        obtain rfl := List.mem_singleton.mp hc
        exact hsigned.canonical
      callerProvider := hprovider
      offers := rfl
      callerTexts := fun o ho => by
        obtain rfl := Option.some.inj ho
        exact ⟨clean_hex _, clean_lit _, clean_lit _, clean_hex _, hclean⟩
      greeting := hshort }⟩

/-- That call is accepted, and its request and its answer are short enough. -/
def agreedCall_fits : Bool :=
  let _ := Interp.ascii
  let _ := Crypto.agreed
  match agreedDeployment.called (readArgsWith false) liveDraws with
  | .ok (request, result, body) =>
    decide ((dumps (.obj (taskMessage request).items)).length ≤ maxBody ∧ (∀ s ∈ result.effectiveScope, Clean s) ∧
      (dumps (.obj body.items)).length ≤ maxBytes)
  | .error _ => false

theorem exists_agreedCall :
    let _ := Interp.ascii
    let _ := Crypto.agreed
    ∃ request result body, agreedDeployment.called (readArgsWith false) liveDraws = .ok (request, result, body) ∧
      (dumps (.obj (taskMessage request).items)).length ≤ maxBody ∧ (∀ s ∈ result.effectiveScope, Clean s) ∧
      (dumps (.obj body.items)).length ≤ maxBytes := by
  intro _ _
  have hfits : agreedCall_fits = true := by decide +kernel
  unfold agreedCall_fits at hfits
  split at hfits
  · rename_i request result body hcalled
    exact ⟨request, result, body, hcalled, of_decide_eq_true hfits⟩
  · cases hfits

theorem deployed_call_readArgs :
    let _ := Interp.ascii
    let _ := Crypto.agreed
    ∃ hello request result body,
      (handshake (agreedDeployment.replies.server fun _ => false) none false (hex liveDraws.nonce)).result = .ok hello ∧
      buildRequest (readArgsWith false) hello liveDraws = .ok request ∧
      agreedNode.serve request toyReadings = .ok result ∧ serializePeerResult result = .ok body ∧
      (sendTask (agreedDeployment.replies.server fun _ => false) (readArgsWith false) liveDraws).result = .ok body.items := by
  intro _ _
  obtain ⟨calleeOffer, challenge, callerOffer, hserves⟩ := agreedDeployment_serves
  have hdeep : TakesDepth fun _ => false := fun _ _ => rfl
  obtain ⟨request, result, body, hcalled, hsize, hscope, hshort⟩ := exists_agreedCall
  obtain ⟨hello, request', hhello, hkey, hchallenge, hrequest, _⟩ := hserves.exists_request Crypto.agreed_correct hdeep
  obtain ⟨rfl, hresult, hbody⟩ := Deployment.called_ok hserves.challenged hkey hchallenge hrequest hcalled
  obtain ⟨hello', request', hhello', hrequest', _, houtcome⟩ :=
    deployed_call Crypto.agreed_correct agreedDeployment (fun _ => false) (readArgsWith false) liveDraws wireGrant calleeOffer
      challenge callerOffer hserves rfl hdeep hdeep
  obtain rfl : hello = hello' := Except.ok.inj (hhello.symm.trans hhello')
  obtain rfl : request = request' := Except.ok.inj (hrequest.symm.trans hrequest')
  obtain ⟨body', hbody', hdelivered⟩ := (houtcome hsize).1 result hresult hscope
  obtain rfl : body = body' := Except.ok.inj (hbody.symm.trans hbody')
  exact ⟨hello, request, result, body, hhello, hrequest, hresult, hbody, hdelivered hshort⟩

end Ca2a
