/-
What a caller sends, and what it believes of the answer.

A run is read off its parts: `sendTask_started` says what a submitted task
was built from, `sendAuthenticated_ok` and `sendLegacy_ok` what an answer
that is returned was. Nothing is assumed of the peer.
-/
import Ca2a.Client
import Ca2a.PeerFacts
import Ca2a.ResponseExchange

namespace Ca2a

open Py

/-! ## Runs -/

section
variable {α β : Type}

@[simp] theorem Run.of_trace (x : Result α) : (Run.of x).trace = [] := rfl

@[simp] theorem Run.of_result (x : Result α) : (Run.of x).result = x.mapError .raised := rfl

@[simp] theorem Run.exchange_result (sent : Exchange) (x : Result α) : (Run.exchange sent x).result = x.mapError .raised :=
  Traced.step_result _ _

theorem Run.started_of_exchange {sent e : Exchange} {x : Result α} (h : .started e ∈ (Run.exchange sent x).trace) :
    e = sent := by
  rcases Traced.mem_step_trace h with h | h
  · cases h
    rfl
  · cases h

/-- The exchange submits a task. -/
def Exchange.IsTask : Exchange → Prop
  | .channel _ => False
  | .task _ => True
  | .authenticatedTask _ => True

instance : DecidablePred Exchange.IsTask := fun e => by
  cases e
  · exact inferInstanceAs (Decidable False)
  · exact inferInstanceAs (Decidable True)
  · exact inferInstanceAs (Decidable True)

/-- The event starts the submission of a task. -/
def startsTask : Event Exchange → Bool
  | .started e => decide e.IsTask
  | .returned _ => false

end

section
variable [Interp]

/-! ## The handshake -/

/-- Hardware is required of a peer or not; the rest of the appraisal is the same. -/
theorem verifyOffer_requireHardware {offer : ChannelOffer} {nonce : Str} {verifier : Option Verifier} {hardware : Bool}
    {role : Str} {peer : VerifiedPeer} :
    verifyOffer offer nonce verifier hardware role = .ok peer ↔
      verifyOffer offer nonce verifier false role = .ok peer ∧
        (hardware = true → offer.report.platform ≠ softwareOnly) := by
  cases hardware with
  | false => simp
  | true =>
    by_cases hsoft : offer.report.platform = softwareOnly
    · simp only [verifyOffer, hsoft, if_true, ne_eq, not_true_eq_false, imp_false, and_false, iff_false]
      split_ifs <;> simp
    · simp only [verifyOffer, hsoft, if_false, ne_eq, not_false_eq_true, implies_true, and_true]

/-- The handshake of a call: what the peer answered, and what the caller made of it. -/
structure Appraised (server : Server) (verifier : Option Verifier) (requireHardware : Bool) (nonce : Str)
    (offer : ChannelOffer) (hello : Handshake) : Prop where
  answered : ∃ body, server.channel nonce = .ok (.obj body) ∧ parseChannelOffer (.obj body) = .ok offer ∧
    parseChallenge body = .ok hello.challenge
  verified : verifyOffer offer nonce verifier requireHardware roleCallee = .ok hello.peer
  role : offer.report.role = roleCallee
  nonce_eq : offer.report.nonce = nonce
  key : hello.peer.publicKey = offer.report.publicKey
  hardware : offer.report.platform ≠ softwareOnly → ∃ verify measurement, verifier = some verify ∧
    verify offer.report nonce = .ok measurement
  required : requireHardware = true → offer.report.platform ≠ softwareOnly

theorem appraised_of_verifyOffer {server : Server} {verifier : Option Verifier} {requireHardware : Bool} {nonce : Str}
    {offer : ChannelOffer} {hello : Handshake} {body : Dict Json} (hbody : server.channel nonce = .ok (.obj body))
    (hoffer : parseChannelOffer (.obj body) = .ok offer) (hchallenge : parseChallenge body = .ok hello.challenge)
    (h : verifyOffer offer nonce verifier requireHardware roleCallee = .ok hello.peer) :
    Appraised server verifier requireHardware nonce offer hello := by
  obtain ⟨hfalse, hrequired⟩ := verifyOffer_requireHardware.mp h
  obtain ⟨hrole, hkey, hnonce, hpeer, hplatform⟩ := verifyOffer_ok_iff.mp hfalse
  refine ⟨⟨body, hbody, hoffer, hchallenge⟩, h, hrole, hnonce, hpeer.trans hkey.symm, fun hne => ?_, hrequired⟩
  rw [if_neg hne] at hplatform
  obtain ⟨-, verify, hverify, hm⟩ := hplatform
  exact ⟨verify, _, hverify, hm⟩

/-- **What a handshake that returns established.** -/
theorem handshake_ok {server : Server} {verifier : Option Verifier} {requireHardware : Bool} {nonce : Str}
    {hello : Handshake} (h : (handshake server verifier requireHardware nonce).result = .ok hello) :
    ∃ offer, Appraised server verifier requireHardware nonce offer hello := by
  simp only [handshake, Traced.bind_result, Run.of_result, Run.exchange_result, Traced.pure_result, bind_ok_iff,
    mapError_ok_iff, Except.ok.injEq] at h
  obtain ⟨_, _, body, hbody, offer, hoffer, peer, hpeer, challenge, hchallenge, rfl⟩ := h
  -- an offer parses off a dictionary only
  cases body with
  | obj body => exact ⟨offer, appraised_of_verifyOffer hbody hoffer hchallenge hpeer⟩
  | null | bool _ | int _ | float _ | str _ | arr _ => cases hoffer

theorem handshake_started {server : Server} {verifier : Option Verifier} {requireHardware : Bool} {nonce : Str}
    {e : Exchange} (h : .started e ∈ (handshake server verifier requireHardware nonce).trace) : e = .channel nonce := by
  simp only [handshake, Traced.mem_trace_bind, Run.of_trace, List.not_mem_nil, Traced.pure_trace, and_false,
    exists_false, or_false, false_or] at h
  obtain ⟨_, _, h⟩ := h
  exact Run.started_of_exchange h

end

/-! ## The request -/

/-- A provider reports on the key and the nonce it is asked for. -/
def Provider.Binding (provider : Provider) : Prop :=
  ∀ key nonce role report, provider key nonce role = .ok report → report.publicKey = key ∧ report.nonce = nonce

theorem softwareProvider_binding : softwareProvider.Binding := by
  rintro key nonce role _ ⟨⟩
  exact ⟨rfl, rfl⟩

section
variable [Interp] [Crypto]

/-- One callee key and one challenge in everything the request commits to. -/
structure BoundTo (args : TaskArgs) (draws : Draws) (key challenge : Str) (request : PeerRequest) : Prop where
  sealed : match args.payload with
    | none => request.sealedPayload = none
    | some payload => ∃ blob, request.sealedPayload = some blob ∧
        sealTo key draws.sealKey draws.sealNonce payload [] = .ok blob
  proofs : ∃ leaf proof, args.chain.getLast? = some leaf ∧ request.holderProof = some proof ∧
    proof.challenge = challenge ∧
    buildHolderProof args.holderKey leaf challenge
      { audience := key
        requestedCapability := args.requestedCapability
        recordId := args.recordId
        sealedPayload := request.sealedPayload
        callerChannelKey := request.callerOffer.map (·.channelPublicKey)
        parentRecordHash := args.parentRecordHash } = .ok proof ∧
    match args.callerProvider with
    | none => request.callerOffer = none ∧ request.callerPossession = none
    | some provider => ∃ offer possession, request.callerOffer = some offer ∧
        request.callerPossession = some possession ∧
        offerChannel provider draws.callerKey challenge roleCaller = .ok offer ∧
        (provider.Binding → offer.report.nonce = challenge) ∧
        proveCallerPossession draws.callerKey key
          (callerPossessionTranscript challenge key offer.channelPublicKey leaf.credentialId leaf.subject
            args.requestedCapability args.recordId request.sealedPayload args.parentRecordHash (some proof.signature)) =
          .ok possession

theorem offerChannel_nonce {provider : Provider} (hp : provider.Binding) {key : Crypto.XKey} {nonce role : Str}
    {offer : ChannelOffer} (h : offerChannel provider key nonce role = .ok offer) : offer.report.nonce = nonce := by
  rw [offerChannel, attestChannel, bind_ok_iff] at h
  obtain ⟨report, hreport, h⟩ := h
  split at h
  · cases h
  · cases h
    exact (hp _ _ _ _ hreport).2

/-- **What a request that is built commits to.** -/
theorem buildRequest_ok {args : TaskArgs} {hello : Handshake} {draws : Draws} {request : PeerRequest}
    (h : buildRequest args hello draws = .ok request) :
    ∃ challenge, hello.challenge = some challenge ∧ BoundTo args draws hello.peer.publicKey challenge request := by
  unfold buildRequest at h
  split at h
  · cases h
  rename_i challenge hchallenge
  refine ⟨challenge, hchallenge, ?_⟩
  simp only [bind_ok_iff, chainLeaf_ok_iff, Except.ok.injEq] at h
  obtain ⟨payload, hsealed, offer, hoffer, leaf, hleaf, proof, hproof, possession, hpossession, rfl⟩ := h
  have hsame : proof.challenge = challenge := by
    obtain ⟨_, _, _, rfl⟩ := buildHolderProof_ok hproof
    rfl
  refine ⟨?_, leaf, proof, hleaf, rfl, hsame, hproof, ?_⟩
  · cases hpayload : args.payload with
    | none =>
      rw [hpayload] at hsealed
      cases hsealed
      rfl
    | some content =>
      simp only [hpayload, optional, bind_ok_iff, Except.ok.injEq] at hsealed
      obtain ⟨blob, hblob, rfl⟩ := hsealed
      exact ⟨blob, rfl, hblob⟩
  · cases hprovider : args.callerProvider with
    | none =>
      rw [hprovider] at hoffer
      cases hoffer
      cases hpossession
      exact ⟨rfl, rfl⟩
    | some provider =>
      simp only [hprovider, optional, bind_ok_iff, Except.ok.injEq] at hoffer
      obtain ⟨offer, hoffer, rfl⟩ := hoffer
      simp only [optional, bind_ok_iff, Except.ok.injEq] at hpossession
      obtain ⟨possession, hpossession, rfl⟩ := hpossession
      exact ⟨offer, possession, rfl, rfl, hoffer, fun hb => offerChannel_nonce hb hoffer, hpossession⟩

/-- What a request takes from the arguments as it is. -/
theorem buildRequest_fields {args : TaskArgs} {hello : Handshake} {draws : Draws} {request : PeerRequest}
    (h : buildRequest args hello draws = .ok request) :
    request.requestedCapability = args.requestedCapability ∧ request.recordId = args.recordId ∧
      request.parentRecordHash = args.parentRecordHash := by
  unfold buildRequest at h
  split at h
  · cases h
  simp only [bind_ok_iff, Except.ok.injEq] at h
  obtain ⟨_, _, _, _, _, _, _, _, _, _, rfl⟩ := h
  exact ⟨rfl, rfl, rfl⟩

/-! ## What is sent -/

/-- What a submitted task is made of. -/
def SentAs (args : TaskArgs) (draws : Draws) (peer : VerifiedPeer) (request : PeerRequest) : Exchange → Prop
  | .channel _ => False
  | .task message => args.requireAuthenticatedResponse = false ∧ attachCa2aMetadata [] request = .ok message
  | .authenticatedTask raw => args.requireAuthenticatedResponse = true ∧ ∃ pending,
      PendingResponse.create peer (taskMessage request) defaultTimeout draws.responseKey draws.session draws.started =
        .ok pending ∧ raw = pending.request

theorem verifiedAnswer_started {server : Server} {pending : PendingResponse} {draws : Draws} {e : Exchange}
    (h : .started e ∈ (verifiedAnswer server pending draws).trace) : e = .authenticatedTask pending.request := by
  simp only [verifiedAnswer, Traced.mem_trace_bind, Run.of_trace, List.not_mem_nil, and_false, exists_false, or_false,
    false_or] at h
  obtain ⟨_, _, h⟩ := h
  exact Run.started_of_exchange h

theorem sendAuthenticated_started {server : Server} {peer : VerifiedPeer} {message : JsonDict} {draws : Draws}
    {e : Exchange} (h : .started e ∈ (sendAuthenticated server peer message draws).trace) :
    ∃ pending, PendingResponse.create peer message defaultTimeout draws.responseKey draws.session draws.started =
      .ok pending ∧ e = .authenticatedTask pending.request := by
  simp only [sendAuthenticated, Traced.mem_trace_bind, Run.of_trace, List.not_mem_nil, false_or, Run.of_result,
    mapError_ok_iff, Traced.mapError_trace] at h
  obtain ⟨pending, hp, h⟩ := h
  refine ⟨pending, hp, ?_⟩
  rcases h with h | ⟨response, _, h⟩
  · exact verifiedAnswer_started h
  · split at h
    · simp [Traced.mem_trace_bind] at h
    · simp at h

omit [Crypto] in
theorem sendLegacy_started {server : Server} {message : JsonDict} {e : Exchange}
    (h : .started e ∈ (sendLegacy server message).trace) : e = .task message.items := by
  simp only [sendLegacy, Traced.mem_trace_bind, Run.of_trace, List.not_mem_nil, Traced.lift_trace, and_false,
    exists_false, or_false, false_or] at h
  obtain ⟨_, _, h⟩ := h
  exact Run.started_of_exchange h

/-- **What a submitted task was built from.** -/
theorem sendTask_started {server : Server} {args : TaskArgs} {draws : Draws} {e : Exchange} (he : e.IsTask)
    (h : .started e ∈ (sendTask server args draws).trace) :
    ∃ hello request, (handshake server args.verifier args.requireHardware (hex draws.nonce)).result = .ok hello ∧
      buildRequest args hello draws = .ok request ∧ SentAs args draws hello.peer request e := by
  simp only [sendTask, Traced.mem_trace_bind, Run.of_trace, List.not_mem_nil, false_or, Run.of_result,
    mapError_ok_iff] at h
  rcases h with h | ⟨hello, hhello, request, hrequest, h⟩
  · rw [handshake_started h] at he
    exact he.elim
  · refine ⟨hello, request, hhello, hrequest, ?_⟩
    split at h
    · rename_i hauth
      obtain ⟨pending, hp, rfl⟩ := sendAuthenticated_started h
      exact ⟨hauth, pending, hp, rfl⟩
    · rename_i hauth
      obtain rfl := sendLegacy_started h
      exact ⟨by simpa using hauth, attach_empty request⟩

/-- **One key.** Whatever the peer answers, a task is submitted only after its offer was appraised, and the key that
was appraised is the one the payload is sealed to, the proofs name and the response is bound to. -/
theorem sendTask_key_binding (server : Server) (args : TaskArgs) (draws : Draws) (e : Exchange) (he : e.IsTask)
    (h : .started e ∈ (sendTask server args draws).trace) :
    ∃ offer hello challenge request,
      Appraised server args.verifier args.requireHardware (hex draws.nonce) offer hello ∧
      hello.challenge = some challenge ∧
      BoundTo args draws offer.report.publicKey challenge request ∧
      SentAs args draws hello.peer request e ∧
      hello.peer.publicKey = offer.report.publicKey ∧
      ∀ raw, e = .authenticatedTask raw → ∃ envelope, encode envelope = .ok raw ∧
        Dict.get? envelope (lit "peer") = some (.str offer.report.publicKey) ∧
        Dict.get? envelope (lit "request") = some (.obj (taskMessage request).items) := by
  obtain ⟨hello, request, hhello, hrequest, hsent⟩ := sendTask_started he h
  obtain ⟨offer, happraised⟩ := handshake_ok hhello
  obtain ⟨challenge, hchallenge, hbound⟩ := buildRequest_ok hrequest
  rw [happraised.key] at hbound
  refine ⟨offer, hello, challenge, request, happraised, hchallenge, hbound, hsent, happraised.key, ?_⟩
  rintro raw rfl
  obtain ⟨_, pending, hp, rfl⟩ := hsent
  refine ⟨_, (PendingResponse.fresh_of_create hp).encoded, ?_, ?_⟩
  · rw [← happraised.key]
    simp [PendingResponse.envelope, Dict.get?_cons]
  · simp [PendingResponse.envelope, Dict.get?_cons]

end

/-- A peer without hardware that answers every task with a statement about its own authentication. -/
def softwareServer (challenge : Str) : Server where
  scheme := lit "http"
  channel nonce :=
    .ok (.obj (serializeChannelOffer
      { channelPublicKey := hex (List.replicate 32 5)
        report :=
          { platform := softwareOnly
            measurement := softwareMeasurement
            publicKey := hex (List.replicate 32 5)
            nonce } }
      (some challenge)))
  task _ := .ok (200, .obj [(lit "response_authentication", .str (lit "verified"))])
  authenticatedTask _ := .error (.builtin .osError [])

/-- A call to read under `wireGrant`, with a payload and an offer. -/
def readArgs : @TaskArgs Crypto.agreed :=
  let _ := Crypto.agreed
  { chain := [wireGrant]
    requestedCapability := lit "read"
    recordId := lit "r0"
    holderKey := (2 : UInt8)
    payload := some [7]
    callerProvider := some softwareProvider }

def toyDraws : @Draws Crypto.agreed :=
  let _ := Crypto.agreed
  { nonce := List.replicate 16 9
    sealKey := (3 : UInt8)
    sealNonce := List.replicate 12 0
    callerKey := (4 : UInt8)
    responseKey := (6 : UInt8)
    session := []
    started := .ok .nan
    before := none
    after := none }

theorem key_binding_readArgs :
    let _ := Interp.ascii
    let _ := Crypto.agreed
    ∃ e offer hello challenge request, e.IsTask ∧ .started e ∈ (sendTask (softwareServer (lit "c")) readArgs toyDraws).trace ∧
      Appraised (softwareServer (lit "c")) none false (hex toyDraws.nonce) offer hello ∧ hello.challenge = some challenge ∧
      BoundTo readArgs toyDraws offer.report.publicKey challenge request ∧
      SentAs readArgs toyDraws hello.peer request e := by
  intro _ _
  have hany : (sendTask (softwareServer (lit "c")) readArgs toyDraws).trace.any startsTask = true := by decide +kernel
  obtain ⟨event, hevent, htask⟩ := List.any_eq_true.mp hany
  cases event with
  | returned e => cases htask
  | started e =>
    have he : e.IsTask := of_decide_eq_true htask
    obtain ⟨offer, hello, challenge, request, happraised, hchallenge, hbound, hsent, _⟩ :=
      sendTask_key_binding (softwareServer (lit "c")) readArgs toyDraws e he hevent
    exact ⟨e, offer, hello, challenge, request, he, hevent, happraised, hchallenge, hbound, hsent⟩

section
variable [Interp] [Crypto]

/-! ## What is believed -/

theorem verifiedAnswer_ok {server : Server} {pending : PendingResponse} {draws : Draws} {response : VerifiedResponse}
    (h : (verifiedAnswer server pending draws).result = .ok response) :
    ∃ status sent, server.authenticatedTask pending.request = .ok (status, sent) ∧ ∃ raw, readBounded sent = .ok raw ∧
      (pending.verify { status := .int status, raw, before := draws.before, after := draws.after }).1 = .ok response := by
  simp only [verifiedAnswer, Traced.bind_result, Run.of_result, Run.exchange_result, bind_ok_iff, mapError_ok_iff] at h
  obtain ⟨_, _, ⟨status, sent⟩, hsent, raw, hraw, h⟩ := h
  exact ⟨status, sent, hsent, raw, hraw, h⟩

/-- The response was verified for the request that was sent, once and over this exchange. -/
structure VerifiedFor (server : Server) (draws : Draws) (peer : VerifiedPeer) (message : JsonDict)
    (response : VerifiedResponse) : Prop where
  exchange : ∃ pending status sent raw,
    PendingResponse.create peer message defaultTimeout draws.responseKey draws.session draws.started = .ok pending ∧
    server.authenticatedTask pending.request = .ok (status, sent) ∧ readBounded sent = .ok raw ∧
    (pending.verify { status := .int status, raw, before := draws.before, after := draws.after }).1 = .ok response ∧
    response.requestSha256 = Crypto.sha256Hex pending.request
  status : PendingResponse.StatusFits response.status

theorem verifiedFor_of_answer {server : Server} {draws : Draws} {peer : VerifiedPeer} {message : JsonDict}
    {pending : PendingResponse} {response : VerifiedResponse}
    (hp : PendingResponse.create peer message defaultTimeout draws.responseKey draws.session draws.started = .ok pending)
    (h : (verifiedAnswer server pending draws).result = .ok response) : VerifiedFor server draws peer message response := by
  obtain ⟨status, sent, hsent, raw, hraw, hverify⟩ := verifiedAnswer_ok h
  have hfresh := PendingResponse.fresh_of_create hp
  have hauth := hverify
  rw [PendingResponse.verify_eq, if_neg (by simp [hfresh.unused])] at hauth
  obtain ⟨_, _, status', _, _, _, _, hfits, _, _, _, _, _, rfl⟩ := PendingResponse.authenticate_ok_iff.mp hauth
  exact ⟨⟨pending, status, sent, raw, hp, hsent, hraw, hverify, hfresh.requestSha256⟩, hfits⟩

/-- **What is returned is what was verified**, with the caller's own statement about it. -/
theorem sendAuthenticated_ok {server : Server} {peer : VerifiedPeer} {message : JsonDict} {draws : Draws}
    {body : Dict Json} (h : (sendAuthenticated server peer message draws).result = .ok body) :
    ∃ response, VerifiedFor server draws peer message response ∧ response.status = 200 ∧
      body = Dict.set response.body (lit "response_authentication") (.obj response.authentication) := by
  simp only [sendAuthenticated, Traced.bind_result, Run.of_result, Traced.mapError_result, bind_ok_iff,
    mapError_ok_iff] at h
  obtain ⟨pending, hp, response, hresponse, h⟩ := h
  refine ⟨response, verifiedFor_of_answer hp hresponse, ?_⟩
  split at h
  · simp [bind_ok_iff] at h
  · rename_i hstatus
    simp only [Traced.pure_result, Except.ok.injEq] at h
    exact ⟨not_not.mp hstatus, h.symm⟩

omit [Interp] [Crypto] in
/-- The error is an exception of the runtime or of a library. -/
def SendError.IsRaised : SendError → Prop
  | .raised _ => True
  | _ => False

omit [Interp] [Crypto] in
theorem mapError_raised {α : Type} (x : Result α) : Spec (x.mapError SendError.raised) (fun _ => True) SendError.IsRaised := by
  cases x <;> exact trivial

theorem verifiedAnswer_raises (server : Server) (pending : PendingResponse) (draws : Draws) :
    Spec (verifiedAnswer server pending draws).result (fun _ => True) SendError.IsRaised := by
  simp only [verifiedAnswer, Traced.bind_result, Run.of_result, Run.exchange_result]
  exact (mapError_raised _).bind fun _ _ => (mapError_raised _).bind fun _ _ => (mapError_raised _).bind fun _ _ =>
    mapError_raised _

omit [Crypto] in
theorem handshake_raises (server : Server) (verifier : Option Verifier) (requireHardware : Bool) (nonce : Str) :
    Spec (handshake server verifier requireHardware nonce).result (fun _ => True) SendError.IsRaised := by
  simp only [handshake, Traced.bind_result, Run.of_result, Run.exchange_result]
  exact (mapError_raised _).bind fun _ _ => (mapError_raised _).bind fun _ _ => (mapError_raised _).bind fun _ _ =>
    (mapError_raised _).bind fun _ _ => (mapError_raised _).bind fun _ _ => trivial

omit [Interp] [Crypto] in
theorem noAuthenticatedResponse_raised {e : SendError} (h : e.IsRaised) : (noAuthenticatedResponse e).IsRaised := by
  cases e with
  | raised e =>
    cases e with
    | builtin k t =>
      simp only [noAuthenticatedResponse]
      split <;> exact trivial
    | app e =>
      simp only [noAuthenticatedResponse]
      split <;> exact trivial
  | authenticatedPeerError e => exact h.elim
  | peerError e => exact h.elim

/-- **How a call with an authenticated response fails**: with an exception, or with a denial that was verified. -/
theorem sendAuthenticated_error {server : Server} {peer : VerifiedPeer} {message : JsonDict} {draws : Draws}
    {err : SendError} (h : (sendAuthenticated server peer message draws).result = .error err) :
    err.IsRaised ∨ ∃ response denial, VerifiedFor server draws peer message response ∧ response.status ≠ 200 ∧
      response.denial = .ok denial ∧ err = .authenticatedPeerError denial := by
  simp only [sendAuthenticated, Traced.bind_result, Run.of_result, Traced.mapError_result, bind_error_iff,
    mapError_ok_iff] at h
  rcases h with h | ⟨pending, hp, h | ⟨response, hresponse, h⟩⟩
  · exact .inl ((mapError_raised _).of_error h)
  · cases hanswer : (verifiedAnswer server pending draws).result with
    | ok response =>
      rw [hanswer] at h
      cases h
    | error e =>
      rw [hanswer] at h
      cases h
      exact .inl (noAuthenticatedResponse_raised ((verifiedAnswer_raises server pending draws).of_error hanswer))
  · split at h
    · rename_i hstatus
      simp only [Traced.bind_result, Run.of_result, bind_error_iff, mapError_ok_iff, Traced.lift_result,
        Except.error.injEq] at h
      rcases h with h | ⟨denial, hdenial, rfl⟩
      · exact .inl ((mapError_raised _).of_error h)
      · exact .inr ⟨response, denial, verifiedFor_of_answer hp hresponse, hstatus, hdenial, rfl⟩
    · cases h

omit [Crypto] in
/-- A legacy answer that is returned makes no statement about its authentication. -/
theorem sendLegacy_ok {server : Server} {message : JsonDict} {body : Dict Json}
    (h : (sendLegacy server message).result = .ok body) : Dict.get? body (lit "response_authentication") = none := by
  simp only [sendLegacy, Traced.bind_result, Traced.lift_result, bind_ok_iff] at h
  obtain ⟨_, _, ⟨status, answer⟩, _, h⟩ := h
  simp only [legacyAnswer] at h
  split at h
  · simp [bind_ok_iff] at h
  · rw [mapError_ok_iff] at h
    cases answer with
    | obj d =>
      cases h
      exact Dict.get?_erase_self _ _
    | null | bool _ | int _ | float _ | str _ | arr _ => cases h

omit [Interp] [Crypto] in
theorem exchange_submits_le {α : Type} (sent : Exchange) (x : Result α) :
    (Run.exchange sent x).trace.countP startsTask ≤ 1 := by
  cases x with
  | error e => exact le_trans (List.countP_le_length) (by simp [Run.exchange, Except.mapError, Traced.step])
  | ok a =>
    have h : (Run.exchange sent (.ok a)).trace = [.started sent, .returned sent] := rfl
    rw [h, List.countP_cons]
    simp only [startsTask, List.countP_singleton, Bool.false_eq_true, if_false]
    by_cases htask : sent.IsTask <;> simp [htask]

omit [Crypto] in
theorem handshake_submits (server : Server) (verifier : Option Verifier) (requireHardware : Bool) (nonce : Str) :
    (handshake server verifier requireHardware nonce).trace.countP startsTask = 0 := by
  rw [List.countP_eq_zero]
  intro event hevent htask
  cases event with
  | returned e => cases htask
  | started e =>
    have he : e.IsTask := of_decide_eq_true htask
    rw [handshake_started hevent] at he
    exact he

/-- A task is submitted at most once. -/
theorem sendTask_submits_once (server : Server) (args : TaskArgs) (draws : Draws) :
    (sendTask server args draws).trace.countP startsTask ≤ 1 := by
  have hof : ∀ {α : Type} (x : Result α), (Run.of x).trace.countP startsTask ≤ 0 := fun _ => le_rfl
  refine le_trans (Traced.countP_trace_bind_le (handshake_submits _ _ _ _).le fun hello =>
    Traced.countP_trace_bind_le (hof _) fun request => ?_) (le_of_eq (by rfl : 0 + (0 + 1) = 1))
  split
  · refine le_trans (Traced.countP_trace_bind_le (hof _) fun pending => Traced.countP_trace_bind_le (n := 1) ?_ fun response => ?_)
      (le_of_eq (by rfl : 0 + (1 + 0) = 1))
    · rw [Traced.mapError_trace]
      exact le_trans (Traced.countP_trace_bind_le (hof _) fun _ => Traced.countP_trace_bind_le (exchange_submits_le _ _)
        fun _ => Traced.countP_trace_bind_le (hof _) fun _ => hof _) (le_of_eq (by rfl : 0 + (1 + (0 + 0)) = 1))
    · split
      · exact le_trans (Traced.countP_trace_bind_le (hof _) fun _ => (by simp : _ ≤ 0)) le_rfl
      · simp
  · exact le_trans (Traced.countP_trace_bind_le (hof _) fun _ => Traced.countP_trace_bind_le (exchange_submits_le _ _)
      fun _ => (by simp : _ ≤ 0)) (le_of_eq (by rfl : 0 + (1 + 0) = 1))

/-- **The assurance of a response cannot be injected or downgraded.** With an authenticated response required, what
is returned is the body of a response verified for this very request, with the caller's own statement over any field of
that name; a denial is reported as authenticated only when it was verified; the legacy endpoint is not used and the
task not submitted twice. Without, what is returned makes no such statement. -/
theorem sendTask_response_assurance (server : Server) (args : TaskArgs) (draws : Draws) :
    (args.requireAuthenticatedResponse = true →
      (∀ body, (sendTask server args draws).result = .ok body →
        ∃ hello request response,
          (handshake server args.verifier args.requireHardware (hex draws.nonce)).result = .ok hello ∧
          buildRequest args hello draws = .ok request ∧
          VerifiedFor server draws hello.peer (taskMessage request) response ∧ response.status = 200 ∧
          body = Dict.set response.body (lit "response_authentication") (.obj response.authentication) ∧
          Dict.get? body (lit "response_authentication") = some (.obj response.authentication)) ∧
      (∀ err, (sendTask server args draws).result = .error err → err.IsRaised ∨
        ∃ hello request response denial,
          (handshake server args.verifier args.requireHardware (hex draws.nonce)).result = .ok hello ∧
          buildRequest args hello draws = .ok request ∧
          VerifiedFor server draws hello.peer (taskMessage request) response ∧
          400 ≤ response.status ∧ response.status ≤ 599 ∧
          response.denial = .ok denial ∧ err = .authenticatedPeerError denial) ∧
      ∀ message, .started (.task message) ∉ (sendTask server args draws).trace) ∧
    (sendTask server args draws).trace.countP startsTask ≤ 1 ∧
    (args.requireAuthenticatedResponse = false → ∀ body, (sendTask server args draws).result = .ok body →
      Dict.get? body (lit "response_authentication") = none) := by
  refine ⟨fun hauth => ⟨fun body h => ?_, fun err h => ?_, fun message h => ?_⟩, sendTask_submits_once _ _ _,
    fun hauth body h => ?_⟩
  · simp only [sendTask, hauth, if_true, Traced.bind_result, Run.of_result, bind_ok_iff, mapError_ok_iff] at h
    obtain ⟨hello, hhello, request, hrequest, h⟩ := h
    obtain ⟨response, hfor, hstatus, rfl⟩ := sendAuthenticated_ok h
    exact ⟨hello, request, response, hhello, hrequest, hfor, hstatus, rfl, Dict.get?_set_self _ _ _⟩
  · simp only [sendTask, hauth, if_true, Traced.bind_result, Run.of_result, bind_error_iff, mapError_ok_iff] at h
    rcases h with h | ⟨hello, hhello, h | ⟨request, hrequest, h⟩⟩
    · exact .inl ((handshake_raises _ _ _ _).of_error h)
    · exact .inl ((mapError_raised _).of_error h)
    · rcases sendAuthenticated_error h with h | ⟨response, denial, hfor, hstatus, hdenial, rfl⟩
      · exact .inl h
      · have hrange : 400 ≤ response.status ∧ response.status ≤ 599 := hfor.status.resolve_left hstatus
        exact .inr ⟨hello, request, response, denial, hhello, hrequest, hfor, hrange.1, hrange.2, hdenial, rfl⟩
  · obtain ⟨_, _, _, _, hsent⟩ := sendTask_started (e := .task message) trivial h
    rw [SentAs, hauth] at hsent
    cases hsent.1
  · simp only [sendTask, hauth, Bool.false_eq_true, if_false, Traced.bind_result, Run.of_result, bind_ok_iff,
      mapError_ok_iff] at h
    obtain ⟨hello, hhello, request, hrequest, h⟩ := h
    exact sendLegacy_ok h

end

/-- A peer that authenticates the answers to its tasks. -/
def provingServer (challenge : Str) : Server :=
  { softwareServer challenge with
    authenticatedTask := fun _ => .ok (200, (utf8? (@dumps Interp.ascii (.obj acceptedResult))).getD []) }

/-- A call that asks for such an answer. -/
def provingArgs : @TaskArgs Crypto.zeroDigest :=
  let _ := Crypto.zeroDigest
  { chain := [wireGrant]
    requestedCapability := lit "read"
    recordId := lit "r0"
    holderKey := (2 : UInt8)
    requireAuthenticatedResponse := true }

def provingDraws : @Draws Crypto.zeroDigest :=
  let _ := Crypto.zeroDigest
  { nonce := List.replicate 16 9
    sealKey := (3 : UInt8)
    sealNonce := List.replicate 12 0
    callerKey := (4 : UInt8)
    responseKey := (6 : UInt8)
    session := List.replicate 32 7
    started := .ok (.finite 0)
    before := some (.finite 1)
    after := some (.finite 1) }

/-- The statement that a peer makes about itself is not returned; where an authenticated answer was asked for and verified,
the caller's own is. -/
theorem response_assurance_twoPeers :
    (let _ := Interp.ascii
      let _ := Crypto.agreed
      ∃ body, (sendTask (softwareServer (lit "c")) readArgs toyDraws).result = .ok body ∧
        Dict.get? body (lit "response_authentication") = none) ∧
    let _ := Interp.ascii
    let _ := Crypto.zeroDigest
    ∃ body, ∃ response : VerifiedResponse, (sendTask (provingServer (lit "c")) provingArgs provingDraws).result = .ok body ∧
      response.status = 200 ∧ Dict.get? body (lit "response_authentication") = some (.obj response.authentication) ∧
      ∀ message, .started (.task message) ∉ (sendTask (provingServer (lit "c")) provingArgs provingDraws).trace := by
  refine ⟨?_, ?_⟩
  · intro _ _
    have hok : (sendTask (softwareServer (lit "c")) readArgs toyDraws).result.isOk = true := by decide +kernel
    obtain ⟨body, hbody⟩ := exists_of_isOk hok
    exact ⟨body, hbody, (sendTask_response_assurance (softwareServer (lit "c")) readArgs toyDraws).2.2 rfl body hbody⟩
  · intro _ _
    have hok : (sendTask (provingServer (lit "c")) provingArgs provingDraws).result.isOk = true := by decide +kernel
    obtain ⟨body, hbody⟩ := exists_of_isOk hok
    obtain ⟨hreturned, _, hlegacy⟩ := (sendTask_response_assurance (provingServer (lit "c")) provingArgs provingDraws).1 rfl
    obtain ⟨_, _, response, _, _, _, hstatus, _, hget⟩ := hreturned body hbody
    exact ⟨body, response, hbody, hstatus, hget, hlegacy⟩

end Ca2a
