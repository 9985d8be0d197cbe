/-
`do_GET`, and the server over a whole run of requests.

Nothing of a node changes while it serves, so a run is a list of requests,
each with the clock readings and the octets it draws. What links two requests
is the challenge: the server keeps none, and still accepts a task only under
one that it handed out before, in an answer to the handshake, and that has not
expired (`PeerNode.challenge_handedOut`). The tag of a challenge is assumed to verify
only for what a call of `issue_challenge` computed it for.
-/
import Ca2a.ChallengeHistory
import Ca2a.Honest
import Ca2a.Py.Decode
import Ca2a.Py.Url
import Ca2a.ServerFacts

namespace Ca2a

open Py

/-! ## The handshake endpoint -/

/-- `CHANNEL_PATH` -/
def channelPath : Str := lit "/.well-known/ca2a/channel"

/-- `_MAX_NONCE` -/
def maxNonce : Nat := 256

/-- A GET. The path and the query are what `urlparse` finds in its target. -/
structure Get where
  path : Str
  query : Str

/-- The nonce of a handshake: the one value of the query, within its bound. -/
def Get.nonce? (get : Get) : Option Str :=
  -- `except ValueError: nonces = []`
  match (queryValues 1 get.query (lit "nonce")).getD [] with
  | [nonce] => if nonce = [] ∨ maxNonce < nonce.length then none else some nonce
  | _ => none

section
variable [Interp] [Crypto]

/-- `do_GET`. The challenge is issued outside the handler of errors. -/
def PeerNode.doGet (node : PeerNode) (get : Get) (clock : Int) (random : Bytes) : Serving Unit :=
  if get.path ≠ channelPath then sendResponse 404 (errorBody "NOT_FOUND" "unknown path")
  else
    match get.nonce? with
    | none => sendResponse 400 (errorBody "BAD_REQUEST" "exactly one bounded nonce is required")
    | some nonce =>
      Traced.tryElse (.lift ((node.offer nonce).mapError .raised)) answerError fun offer => do
        let challenge ← .lift ((node.issueChallenge clock random).mapError .raised)
        sendResponse 200 (serializeChannelOffer offer (some challenge))

/-- The provider attests, or raises one of the runtime's errors, whatever can be encoded. -/
def Provider.Conforms (provider : Provider) : Prop :=
  ∀ key nonce role, Clean key → Clean nonce → Contained (provider key nonce role)

/-- The handshake is answered with this offer and this challenge. -/
structure PeerNode.Greeting (node : PeerNode) (get : Get) (clock : Int) (random : Bytes) (offer : ChannelOffer)
    (challenge : Str) (data : Bytes) : Prop where
  path : get.path = channelPath
  offered : ∃ nonce, get.nonce? = some nonce ∧ node.offer nonce = .ok offer
  challenged : node.issueChallenge clock random = .ok challenge
  data : sendJson (serializeChannelOffer offer (some challenge)) = .ok data

omit [Interp] [Crypto] in
/-- What is offered is text and octets. -/
theorem noFloat_serializeChannelOffer (offer : ChannelOffer) (challenge : Option Str) :
    (Json.obj (serializeChannelOffer offer challenge)).NoFloat := by
  have hfield : ∀ (k : Str) (o : Option Str), ∀ kv ∈ optField k (o.map Json.str), kv.2.NoFloat := by
    intro k o kv hkv
    obtain ⟨j, hj, rfl⟩ := mem_optField.mp hkv
    obtain ⟨s, _, rfl⟩ := Option.map_eq_some_iff.mp hj
    trivial
  have hevidence : ∀ field value, ∀ kv ∈ attestationItems.evidence field value, kv.2.NoFloat := by
    intro field value kv hkv
    obtain ⟨j, hj, rfl⟩ := mem_optField.mp hkv
    obtain ⟨b, _, rfl⟩ := Option.map_eq_some_iff.mp hj
    trivial
  have hrole : ∀ kv ∈ optField (lit "role")
      (if offer.report.role = roleCallee then none else some (Json.str offer.report.role)), kv.2.NoFloat := by
    intro kv hkv
    obtain ⟨j, hj, rfl⟩ := mem_optField.mp hkv
    split at hj
    · cases hj
    · cases hj
      trivial
  have hattestation : (Json.obj (attestationItems offer.report)).NoFloat := by
    rw [Json.noFloat_obj, attestationItems]
    simp only [List.forall_mem_append, List.forall_mem_cons]
    exact ⟨⟨⟨⟨⟨⟨trivial, trivial, trivial, trivial, by simp⟩, hrole⟩, hevidence _ _⟩, hevidence _ _⟩, hevidence _ _⟩,
      hevidence _ _⟩
  rw [Json.noFloat_obj, serializeChannelOffer]
  simp only [List.forall_mem_append, List.forall_mem_cons]
  exact ⟨⟨trivial, hattestation, by simp⟩, hfield _ _⟩

omit [Interp] [Crypto] in
/-- The handler starts to send this. -/
def Sends {α : Type} (run : Serving α) (status : Int) (data : Bytes) : Prop := .started (.send status data) ∈ run.trace

omit [Crypto] in
theorem sends_sendResponse {status status' : Int} {body : Dict Json} {data : Bytes}
    (h : Sends (sendResponse status body) status' data) : status' = status ∧ sendJson body = .ok data := by
  cases hbody : sendJson body with
  | error e => simp [Sends, sendResponse, hbody, Traced.lift_bind, Except.mapError] at h
  | ok sent =>
    rw [Sends, sendResponse_eq hbody] at h
    obtain ⟨rfl, rfl⟩ : status' = status ∧ data = sent := by simpa using h
    exact ⟨rfl, rfl⟩

omit [Interp] [Crypto] in
/-- A `try` that sends nothing itself sends what comes after it, or its handler. -/
theorem sends_tryElse {α β : Type} {x : Serving α} {handler : ServeError → Option (Serving β)} {next : α → Serving β}
    {status : Int} {data : Bytes} (hx : ¬ Sends x status data) (h : Sends (x.tryElse handler next) status data) :
    (∃ a, x.result = .ok a ∧ Sends (next a) status data) ∨
      ∃ e y, x.result = .error e ∧ handler e = some y ∧ Sends y status data := by
  unfold Sends at hx h
  cases hresult : x.result with
  | ok a =>
    rw [Traced.tryElse_of_ok hresult] at h
    rcases List.mem_append.mp h with h | h
    · exact absurd h hx
    · exact .inl ⟨a, rfl, h⟩
  | error e =>
    cases hy : handler e with
    | none => exact absurd (by simpa [Traced.tryElse, hresult, hy] using h) hx
    | some y =>
      rw [Traced.tryElse_of_error hresult hy] at h
      rcases List.mem_append.mp h with h | h
      · exact absurd h hx
      · exact .inr ⟨e, y, rfl, hy, h⟩

omit [Interp] [Crypto] in
theorem sends_lift_bind {α β : Type} {x : Except ServeError α} {next : α → Serving β} {status : Int} {data : Bytes}
    (h : Sends (Traced.lift x >>= next) status data) : ∃ a, x = .ok a ∧ Sends (next a) status data := by
  unfold Sends at h
  rcases Traced.mem_trace_bind.mp h with h | ⟨a, ha, h⟩
  · cases h
  · exact ⟨a, ha, h⟩

omit [Crypto] in
/-- An error of the runtime is not answered with a success. -/
theorem not_sends_answerError {e : ServeError} {y : Serving Unit} (hy : answerError e = some y) {data : Bytes} :
    ¬ Sends y 200 data := by
  intro h
  cases e with
  | recursionError | timeoutError => cases hy
  | raised e =>
    cases e with
    | builtin k t => cases hy
    | app exc =>
      cases hy
      have hstatus := (sends_sendResponse h).1
      have := exc.cls.httpStatus_range
      omega

omit [Crypto] in
/-- Nor is a body that is refused. -/
theorem not_sends_refuseBody {e : ServeError} {y : Serving Unit} (hy : refuseBody e = some y) {data : Bytes} :
    ¬ Sends y 200 data := by
  have hrefusal : ¬ Sends refuseBody.refusal 200 data := fun h => absurd (sends_sendResponse h).1 (by decide)
  cases e with
  | recursionError | timeoutError =>
    cases hy
    exact hrefusal
  | raised e =>
    cases e with
    | builtin k t =>
      rw [refuseBody] at hy
      split at hy
      · cases hy
        exact hrefusal
      · cases hy
    | app exc =>
      cases hy
      exact hrefusal

namespace PeerNode
variable {node : PeerNode} {get : Get} {clock : Int} {random : Bytes}

/-- What `do_GET` does for an offer, when the challenge is issued. -/
theorem doGet_eq {nonce : Str} {offer : ChannelOffer} {challenge : Str} {data : Bytes}
    (hpath : get.path = channelPath) (hnonce : get.nonce? = some nonce) (hoffer : node.offer nonce = .ok offer)
    (hchallenge : node.issueChallenge clock random = .ok challenge)
    (hdata : sendJson (serializeChannelOffer offer (some challenge)) = .ok data) :
    node.doGet get clock random = ⟨[.started (.send 200 data), .returned (.send 200 data)], .ok ()⟩ := by
  have hlift : (Traced.lift (σ := Act) ((node.offer nonce).mapError ServeError.raised)).result = .ok offer := by
    rw [Traced.lift_result, mapError_ok_iff]
    exact hoffer
  rw [doGet, if_neg (not_not.mpr hpath), hnonce]
  simp only
  rw [Traced.tryElse_of_ok hlift, hchallenge]
  exact sendResponse_eq hdata 200

end PeerNode

/-! ## Accepted tasks -/

namespace Served
variable {node : Served} {status : Int} {data : Bytes}

/-- The answer is a success only for a call that the node accepts. -/
theorem accepted_of_answer {message : Dict Json} {body : JsonDict} (h : node.answer message = .ok (200, body)) :
    ∃ result, node.handle message = .ok result := by
  unfold answer at h
  split at h
  · rename_i hbody
    obtain ⟨result, hresult, _⟩ := bind_ok_iff.mp hbody
    exact ⟨result, hresult⟩
  · rename_i exc _
    have hstatus : (exc.cls.httpStatus : Int) = 200 := congrArg Prod.fst (Except.ok.inj h)
    have := exc.cls.httpStatus_range
    omega
  · cases h

/-- The request of an envelope, as the producer of its response reads it. -/
def Requests (envelope message : Dict Json) : Prop :=
  ∃ frozen read, encode envelope = .ok frozen ∧ decode frozen = .ok read ∧
    Dict.get? read (lit "request") = some (.obj message)

theorem requests_of_create {privateKey : Crypto.XKey} {envelope : JsonDict} {producer : ResponseProducer} {request : Json}
    (h : ResponseProducer.create privateKey envelope = .ok producer)
    (hrequest : item producer.envelope (lit "request") = .ok request) : Requests envelope.items (itemsOf (some request)) := by
  simp only [ResponseProducer.create, bind_ok_iff, ensure_ok_iff, exists_const] at h
  obtain ⟨frozen, hfrozen, read, hread, _, _, _, _, _, _, _, request', hrequest', hdict, h⟩ := h
  obtain ⟨_, _, _, _, _, _, _, _, _, _, h⟩ := h
  cases h
  cases hrequest'.symm.trans hrequest
  obtain ⟨message, rfl⟩ : ∃ message, request = .obj message := by
    cases request with
    | obj message => exact ⟨message, rfl⟩
    | _ => cases hdict
  exact ⟨frozen, read, hfrozen, hread, item_ok_iff.mp hrequest'⟩

theorem accepted_of_answerAuthenticated {envelope : JsonDict} (h : Sends (node.answerAuthenticated envelope) 200 data) :
    ∃ message result, Requests envelope.items message ∧ node.handle message = .ok result := by
  unfold answerAuthenticated at h
  by_cases hsent : Sends (Traced.lift ((node.handleAuthenticated envelope).mapError ServeError.raised) >>= fun answer =>
      sendResponse answer.1 answer.2) 200 data
  · obtain ⟨answer, hanswer, hsent⟩ := sends_lift_bind hsent
    obtain ⟨status, body⟩ := answer
    obtain ⟨rfl, _⟩ := sends_sendResponse hsent
    rw [mapError_ok_iff] at hanswer
    simp only [handleAuthenticated, bind_ok_iff, Except.ok.injEq] at hanswer
    obtain ⟨producer, hproducer, request, hrequest, reply, hreply, sealed, _, heq⟩ := hanswer
    obtain ⟨code, serialized⟩ := reply
    obtain rfl : code = 200 := congrArg Prod.fst heq
    obtain ⟨result, hresult⟩ := accepted_of_answer hreply
    exact ⟨_, result, requests_of_create hproducer hrequest, hresult⟩
  · rcases sends_tryElse hsent h with ⟨_, _, h⟩ | ⟨e, y, _, hy, h⟩
    · cases h
    · exact absurd h (not_sends_answerError hy)

theorem accepted_of_answerTask {message : Dict Json} (h : Sends (node.answerTask message) 200 data) :
    ∃ result, node.handle message = .ok result := by
  rcases sends_tryElse (by simp [Sends]) h with ⟨result, hresult, _⟩ | ⟨e, y, _, hy, h⟩
  · rw [Traced.lift_result, mapError_ok_iff] at hresult
    exact ⟨result, hresult⟩
  · exact absurd h (not_sends_answerError hy)

omit [Crypto] in
/-- What reads the body and parses it sends nothing. -/
theorem sends_parse {α : Type} {post : Post} {length : Nat} {f : Bytes → Except ServeError α} {next : α → Serving Unit}
    (h : Sends (Traced.tryElse
      (do
        let raw ← .step (.read length) (post.read length)
        .lift (f raw))
      refuseBody next) 200 data) : ∃ raw a, post.read length = .ok raw ∧ f raw = .ok a ∧ Sends (next a) 200 data := by
  have hread : ¬ Sends (do
      let raw ← Traced.step (Act.read length) (post.read length)
      Traced.lift (f raw)) 200 data := by
    intro hread
    rcases Traced.mem_trace_bind.mp hread with hread | ⟨_, _, hread⟩
    · rcases Traced.mem_step_trace hread with hread | hread <;> cases hread
    · cases hread
  rcases sends_tryElse hread h with ⟨a, ha, h⟩ | ⟨e, y, _, hy, h⟩
  · simp only [Traced.bind_result, Traced.step_result, Traced.lift_result, bind_ok_iff] at ha
    obtain ⟨raw, hraw, ha⟩ := ha
    exact ⟨raw, a, hraw, ha, h⟩
  · exact absurd h (not_sends_refuseBody hy)

/-- The message that a POST carries: the octets it declares are read as one, or as an envelope with it. -/
def Carries (jsonLoads : Bytes → Except ServeError Json) (post : Post) (message : Dict Json) : Prop :=
  ∃ length raw, post.Declares length ∧ post.read length = .ok raw ∧
    (post.path = taskPath ∧ jsonLoads raw = .ok (.obj message) ∨
      post.path = authenticatedTaskPath ∧ ∃ envelope, decode raw = .ok envelope ∧ Requests envelope message)

omit [Crypto] in
theorem decode_of_decodeDict {raw : Bytes} {envelope : JsonDict} (h : decodeDict raw = .ok envelope) :
    decode raw = .ok envelope.items := by
  unfold decodeDict at h
  split at h
  · rename_i hdecode
    cases h
    exact hdecode
  · cases h

/-- **A POST is answered with a 200 only for a message that it carries and the node accepts.** -/
theorem accepted_of_sent {jsonLoads : Bytes → Except ServeError Json} {post : Post}
    (h : Sends (node.doPost jsonLoads post) 200 data) :
    ∃ message result, Carries jsonLoads post message ∧ node.handle message = .ok result := by
  have hrefused : ∀ status, status ≠ 200 → ∀ code message, ¬ Sends (sendResponse status (errorBody code message)) 200 data :=
    fun status hstatus code message h => hstatus (sends_sendResponse h).1.symm
  unfold doPost at h
  split at h
  · exact absurd h (hrefused _ (by decide) _ _)
  rename_i hpath
  simp only at h
  split at h
  · exact absurd h (hrefused _ (by decide) _ _)
  obtain ⟨length, hlength, h⟩ := sends_lift_bind h
  split at h
  · exact absurd h (hrefused _ (by decide) _ _)
  rename_i hbound
  have hdeclared : post.Declares length.toNat := by
    rw [mapError_ok_iff, intOf] at hlength
    split at hlength
    · rename_i hint
      cases hlength
      have hnat : int? (post.contentLength.getD []) = some ((length.toNat : Nat) : Int) := by
        rw [hint, Int.toNat_of_nonneg (by omega)]
      exact ⟨hnat, by omega, by omega⟩
    · cases hlength
  unfold answerBody at h
  split at h
  · rename_i hstrict
    obtain ⟨raw, envelope, hraw, hdecode, h⟩ := sends_parse h
    obtain ⟨message, result, hrequest, hresult⟩ := accepted_of_answerAuthenticated h
    rw [mapError_ok_iff] at hdecode
    exact ⟨message, result, ⟨_, raw, hdeclared, hraw, .inr ⟨hstrict, _, decode_of_decodeDict hdecode, hrequest⟩⟩, hresult⟩
  · rename_i hplain
    obtain ⟨raw, message, hraw, hloads, h⟩ := sends_parse h
    split at h
    · rename_i d
      obtain ⟨result, hresult⟩ := accepted_of_answerTask h
      have htask : post.path = taskPath := by
        by_contra hn
        exact hpath ⟨hn, hplain⟩
      exact ⟨d, result, ⟨_, raw, hdeclared, hraw, .inl ⟨htask, hloads⟩⟩, hresult⟩
    · exact absurd h (hrefused _ (by decide) _ _)

end Served

/-! ## Runs -/

omit [Interp] [Crypto] in
/-- A request to the server, with what the node reads and draws for it. -/
inductive HttpRequest
  | get (get : Get) (clock : Int) (random : Bytes)
  | post (post : Post) (clock : Readings)

namespace PeerNode
variable {node : PeerNode}

/-- The call of `issue_challenge` that a request makes, if it makes one. -/
def issueCall? (node : PeerNode) : HttpRequest → Option IssueCall
  | .get get clock random =>
    if get.path = channelPath then
      get.nonce?.bind fun nonce =>
        match node.offer nonce with
        | .ok _ => some ⟨node.challengeSecret, node.challengeTtlSeconds, clock, random⟩
        | .error _ => none
    else none
  | .post _ _ => none

/-- The calls of `issue_challenge` in a run. -/
def issued (node : PeerNode) (run : List HttpRequest) : List IssueCall := run.filterMap node.issueCall?

/-- The run has answered a handshake with the challenge, in this or another spelling, and it has not expired. -/
def HandedOut (node : PeerNode) (run : List HttpRequest) (now : Int) (challenge : Str) : Prop :=
  ∃ get clock random offer handed data, .get get clock random ∈ run ∧
    node.Greeting get clock random offer handed data ∧ Sends (node.doGet get clock random) 200 data ∧
    now < clock + node.challengeTtlSeconds ∧
    ∃ expiry rand mac, Reads challenge expiry rand mac ∧ Reads handed expiry rand mac

/-- The request that made a call answered with what the call returned. -/
theorem greeting_of_issueCall? {request : HttpRequest} {call : IssueCall} (hcall : node.issueCall? request = some call)
    {challenge : Str} (hreturned : call.Returned challenge) :
    ∃ get clock random offer data, request = .get get clock random ∧
      call.clock + call.ttlSeconds = clock + node.challengeTtlSeconds ∧
      node.Greeting get clock random offer challenge data ∧ Sends (node.doGet get clock random) 200 data := by
  cases request with
  | post post clock => cases hcall
  | get get clock random =>
    rw [issueCall?] at hcall
    split at hcall
    · rename_i hpath
      obtain ⟨nonce, hnonce, hcall⟩ := Option.bind_eq_some_iff.mp hcall
      split at hcall
      · rename_i offer hoffer
        cases hcall
        obtain ⟨data, hdata⟩ := sendJson_of_noFloat (noFloat_serializeChannelOffer offer (some challenge))
        refine ⟨get, clock, random, offer, data, rfl, rfl, ⟨hpath, ⟨nonce, hnonce, hoffer⟩, hreturned, hdata⟩, ?_⟩
        rw [Sends, doGet_eq hpath hnonce hoffer hreturned hdata]
        exact List.mem_cons_self
      · cases hcall
    · cases hcall

/-- A challenge that verifies was handed out. -/
theorem handedOut_of_verifies {run : List HttpRequest} {challenge : Str} {now : Int}
    (hideal : IdealTag (node.issued run) node.challengeSecret challenge)
    (h : verifyChallenge node.challengeSecret challenge now = .ok ()) : node.HandedOut run now challenge := by
  obtain ⟨handed, ⟨call, hcall, _, hreturned, hnow⟩, hreads⟩ := exists_live_of_verifies hideal h
  obtain ⟨request, hrequest, hcall⟩ := List.mem_filterMap.mp hcall
  obtain ⟨get, clock, random, offer, data, rfl, hexpiry, hgreeting, hsent⟩ := greeting_of_issueCall? hcall hreturned
  exact ⟨get, clock, random, offer, handed, data, hrequest, hgreeting, hsent, hexpiry ▸ hnow, hreads⟩

/-- **A task is accepted only under a challenge that the server handed out.** When a POST is answered with a 200, after
any requests `before`, the request it carried was accepted, with a holder proof for a challenge that the answer to an
earlier handshake handed out and that had not expired, provided only the node could compute its tag; and the same goes
for the nonce of the caller's own attestation, if it sent one. -/
theorem challenge_handedOut (node : PeerNode) (hproof : node.requireHolderProof = true)
    (jsonLoads : Bytes → Except ServeError Json) (before : List HttpRequest) (post : Post) (clock : Readings) (data : Bytes)
    (hsent : Sends ((node.served clock).doPost jsonLoads post) 200 data) :
    ∃ message request result proof, Served.Carries jsonLoads post message ∧
      parsePeerRequest message = .ok (some request) ∧ node.handle message clock = .ok result ∧
      request.holderProof = some proof ∧
      (IdealTag (node.issued before) node.challengeSecret proof.challenge →
        node.HandedOut before clock.holder proof.challenge) ∧
      ∀ offer ∈ request.callerOffer, IdealTag (node.issued before) node.challengeSecret offer.report.nonce →
        node.HandedOut before clock.appraisal offer.report.nonce := by
  obtain ⟨message, result, hcarries, hhandle⟩ := Served.accepted_of_sent hsent
  change node.handle message clock = .ok result at hhandle
  obtain ⟨request, hparsed, hrun⟩ := handle_ok_iff.mp hhandle
  obtain ⟨revocations, _, hrun⟩ := serve_ok_iff.mp hrun
  obtain ⟨leaf, haccepted⟩ := handlePeerRequest_ok_iff.mp hrun
  obtain ⟨proof, _, secret, hholder, _, hsecret, hverified⟩ := verifyCallerHoldsLeaf_ok_iff.mp (haccepted.holder hproof)
  obtain rfl : node.challengeSecret = secret := Option.some.inj hsecret
  refine ⟨message, request, result, proof, hcarries, hparsed, hhandle, hholder, fun hideal => ?_,
    fun offer hoffer hideal => ?_⟩
  · exact handedOut_of_verifies hideal (verifyHolderProof_ok_iff.mp hverified).1
  · obtain ⟨_, happraised⟩ := appraiseCallerRuntime_ok_iff.mp haccepted.appraisal
    rw [hoffer] at happraised
    obtain ⟨peer, hpeer, _⟩ := happraised
    obtain ⟨secret, _, hsecret, _, hcaller, _⟩ := appraiseOffer_ok_iff.mp hpeer
    obtain rfl : node.challengeSecret = secret := Option.some.inj hsecret
    exact handedOut_of_verifies hideal (appraiseCaller_ok_iff.mp hcaller).1

end PeerNode

end

/-! ### A run of two requests -/

/-- `json.loads` in the handler of a POST. -/
def serverLoads [Interp] (overflows : Str → Bool) (raw : Bytes) : Except ServeError Json :=
  (jsonLoads (ε := CA2AError) overflows raw).mapError fun
    | .builtin .recursionError _ => .recursionError
    | e => .raised e

/-- What `agreedNode` is asked first. -/
def readGet : Get where
  path := channelPath
  query := lit "nonce=" ++ hex (List.replicate 16 9)

/-- The task of `readArgs` under the challenge it got for that, as it is posted. -/
def readPost : Post :=
  let _ := Interp.ascii
  let _ := Crypto.agreed
  let challenge := (agreedNode.issueChallenge 0 [1]).toOption.getD []
  let posted := (sendTask (softwareServer challenge) readArgs toyDraws).trace.findSome? fun
    | .started (.task message) => some message
    | _ => none
  let body := (sendJson (posted.getD [])).toOption.getD []
  { path := taskPath, contentLength := some (decimal body.length), body, ends := false }

theorem challenge_handedOut_readPost :
    let _ := Interp.ascii
    let _ := Crypto.agreed
    ∃ message request result, Served.Carries (serverLoads fun _ => false) readPost message ∧
      parsePeerRequest message = .ok (some request) ∧ agreedNode.handle message toyReadings = .ok result := by
  intro _ _
  have hany : ((agreedNode.served toyReadings).doPost (serverLoads fun _ => false) readPost).trace.any (fun
      | .started (.send status _) => status == 200
      | _ => false) = true := by decide +kernel
  obtain ⟨event, hevent, hstatus⟩ := List.any_eq_true.mp hany
  split at hstatus
  · rename_i status data
    obtain rfl : status = 200 := by simpa using hstatus
    obtain ⟨message, request, result, _, hcarries, hparsed, hhandle, _⟩ :=
      PeerNode.challenge_handedOut agreedNode rfl (serverLoads fun _ => false) [.get readGet 0 [1]] readPost toyReadings
        data hevent
    exact ⟨message, request, result, hcarries, hparsed, hhandle⟩
  · cases hstatus

end Ca2a
