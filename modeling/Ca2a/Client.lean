/-
`ca2a_runtime.transport.client`: the caller side of a live call.

The peer is anything that answers: a `Server` gives, for what is sent to
each of its three endpoints, an answer or whatever the exchange raised. A
run of `sendTask` records its exchanges (`Py.Traced`), since what was sent,
and how often, is what the source promises. What a run draws at random or
reads off a clock is in `Draws`.
-/
import Ca2a.AdapterRoundTrip
import Ca2a.Node

namespace Ca2a

open Py

/-- A request to one of the peer's endpoints, with what is sent. -/
inductive Exchange
  | channel (nonce : Str)
  | task (message : Dict Json)
  | authenticatedTask (raw : Bytes)

/-- The remote peer, as `urllib` and `json` present it: the answer of each endpoint, or what was raised. -/
structure Server where
  /-- The scheme of the base URL. -/
  scheme : Str
  channel : (nonce : Str) → Result Json
  task : (message : Dict Json) → Result (Int × Json)
  authenticatedTask : (raw : Bytes) → Result (Int × Bytes)

/-- The error a legacy peer's answer is turned into. The status is whatever the peer sent. -/
structure PeerError where
  message : Str
  detail : Json
  code : Str
  httpStatus : Json

/-- What leaves `send_task` as an exception. -/
inductive SendError
  | raised (e : Exc)
  | authenticatedPeerError (e : AuthenticatedPeerError)
  | peerError (e : PeerError)

/-- `_ALLOWED_SCHEMES` -/
def allowedSchemes : List Str := [lit "http", lit "https"]

/-- `_require_http_url` -/
def requireHttpUrl (scheme : Str) : Result Unit :=
  if scheme ∉ allowedSchemes then
    raise .transportError (lit "refusing to open a non-HTTP(S) URL")
      (some (lit "scheme must be one of ('http', 'https')"))
  else .ok ()

/-- A run of the client. -/
abbrev Run := Traced Exchange SendError

/-- A computation of the runtime. -/
def Run.of {α : Type} (x : Result α) : Run α := .lift (x.mapError .raised)

/-- One exchange with the peer. -/
def Run.exchange {α : Type} (sent : Exchange) (answer : Result α) : Run α := .step sent (answer.mapError .raised)

/-- `Handshake` -/
structure Handshake where
  peer : VerifiedPeer
  challenge : Option Str

section
variable [Interp]

/-- `handshake`, with the nonce it draws. -/
def handshake (server : Server) (verifier : Option Verifier) (requireHardware : Bool) (nonce : Str) : Run Handshake := do
  .of (requireHttpUrl server.scheme)
  let body ← .exchange (.channel nonce) (server.channel nonce)
  let offer ← .of (parseChannelOffer body)
  let peer ← .of (verifyOffer offer nonce verifier requireHardware roleCallee)
  -- an offer parses off a dictionary only
  let challenge ← .of (parseChallenge (itemsOf (some body)))
  pure { peer, challenge }

/-- `_rehydrate_error` -/
def rehydrateError (err : Json) : Except SendError PeerError :=
  match err with
  | .obj d =>
    .ok
      { message := ((Dict.get? d (lit "message")).getD (.str (lit "peer error"))).text
        detail := (Dict.get? d (lit "detail")).getD .null
        code := ((Dict.get? d (lit "code")).bind Json.str?).getD (lit "CA2A_ERROR")
        httpStatus :=
          match Dict.get? d (lit "http_status") with
          | some (.int i) => .int i
          | some (.bool b) => .bool b
          | _ => .int 500 }
  | _ =>
    .error (.raised (.builtin .attributeError (lit "'" ++ err.typeName ++ lit "' object has no attribute 'get'")))

/-- `body.pop("response_authentication", None); return body`. Only a dictionary has this `pop`. -/
def withoutResponseAuthentication (body : Json) : Result (Dict Json) :=
  match body with
  | .obj d => .ok (Dict.erase d (lit "response_authentication"))
  | .arr _ => .error (.builtin .typeError (Interp.errorText "list.pop" body.typeName))
  | _ => .error (.builtin .attributeError (lit "'" ++ body.typeName ++ lit "' object has no attribute 'pop'"))

/-- The answer of a legacy peer. -/
def legacyAnswer (status : Int) (body : Json) : Except SendError (Dict Json) :=
  if status ≠ 200 then do
    let err ← (getDefault body (lit "error") (.obj [])).mapError .raised
    let e ← rehydrateError err
    .error (.peerError e)
  else (withoutResponseAuthentication body).mapError .raised

/-- What `except (OSError, http.client.HTTPException, TransportError)` makes of an error. -/
def noAuthenticatedResponse : SendError → SendError
  | .raised (.builtin k t) =>
    if k = .osError ∨ k = .httpException then unknown else .raised (.builtin k t)
  | .raised (.app e) =>
    if e.cls = .transportError ∨ e.cls = .responseAuthenticationFailed then unknown else .raised (.app e)
  | e => e
where
  unknown : SendError :=
    .raised (.app
      { cls := .responseAuthenticationFailed
        message := lit "no authenticated response; execution outcome is unknown" })

end

section
variable [Interp] [Crypto]

/-- The arguments of `send_task`. -/
structure TaskArgs where
  chain : List DelegationCredential
  requestedCapability : Str
  recordId : Str
  holderKey : Crypto.EdKey
  payload : Option Bytes := none
  verifier : Option Verifier := none
  requireHardware : Bool := false
  parentRecordHash : Option Str := none
  callerProvider : Option Provider := none
  requireAuthenticatedResponse : Bool := false

/-- What a run of `send_task` draws and reads off the clock. -/
structure Draws where
  nonce : Bytes
  sealKey : Crypto.XKey
  sealNonce : Bytes
  callerKey : Crypto.XKey
  responseKey : Crypto.XKey
  session : Bytes
  started : Result PyFloat
  before : Option PyFloat
  after : Option PyFloat

omit [Interp] [Crypto] in
/-- `f(x)` when there is an `x`. -/
def optional {α β : Type} (f : α → Result β) : Option α → Result (Option β)
  | none => .ok none
  | some a => do
    let b ← f a
    .ok (some b)

/-- What the holder proof of the call is built with. -/
def TaskArgs.holderParams (args : TaskArgs) (peer : VerifiedPeer) (sealedPayload : Option Bytes)
    (callerOffer : Option ChannelOffer) : HolderParams where
  audience := peer.publicKey
  requestedCapability := args.requestedCapability
  recordId := args.recordId
  sealedPayload := sealedPayload
  callerChannelKey := callerOffer.map (·.channelPublicKey)
  parentRecordHash := args.parentRecordHash

/-- The transcript of the call's proof of possession. -/
def TaskArgs.transcript (args : TaskArgs) (leaf : DelegationCredential) (challenge : Str) (peer : VerifiedPeer)
    (sealedPayload : Option Bytes) (holderProof : HolderProof) (offer : ChannelOffer) : Dict Json :=
  callerPossessionTranscript challenge peer.publicKey offer.channelPublicKey leaf.credentialId leaf.subject
    args.requestedCapability args.recordId sealedPayload args.parentRecordHash (some holderProof.signature)

/-- The request `send_task` makes of a handshake. -/
def buildRequest (args : TaskArgs) (hello : Handshake) (draws : Draws) : Result PeerRequest :=
  match hello.challenge with
  | none =>
    raise .attestationFailed (lit "the peer issued no challenge, so the caller cannot prove it holds the leaf key")
      (some (lit "the callee's handshake response carried no 'challenge' field"))
  | some challenge => do
    let sealedPayload ← optional (sealToPeer hello.peer draws.sealKey draws.sealNonce) args.payload
    let callerOffer ← optional (fun provider => offerChannel provider draws.callerKey challenge roleCaller)
      args.callerProvider
    let leaf ← chainLeaf args.chain
    let holderProof ← buildHolderProof args.holderKey leaf challenge
      (args.holderParams hello.peer sealedPayload callerOffer)
    let callerPossession ← optional (fun offer => proveCallerPossession draws.callerKey hello.peer.publicKey
      (args.transcript leaf challenge hello.peer sealedPayload holderProof offer)) callerOffer
    .ok
      { chain := args.chain
        requestedCapability := args.requestedCapability
        recordId := args.recordId
        sealedPayload := sealedPayload
        parentRecordHash := args.parentRecordHash
        callerOffer := callerOffer
        holderProof := some holderProof
        callerPossession := callerPossession }

omit [Interp] [Crypto] in
/-- `attach_ca2a_metadata({}, request)` -/
def taskMessage (request : PeerRequest) : JsonDict where
  items := [(lit "metadata", .obj (writeFields request []))]
  wf := by simpa [Dict.keys] using Json.wf_obj.mp (@wf_writeFields request [] (by simp [Dict.keys]))

/-- The request is posted once and the answer verified. -/
def verifiedAnswer (server : Server) (pending : PendingResponse) (draws : Draws) : Run VerifiedResponse := do
  .of (requireHttpUrl server.scheme)
  let (status, sent) ← .exchange (.authenticatedTask pending.request) (server.authenticatedTask pending.request)
  let raw ← .of (readBounded sent)
  .of (pending.verify { status := .int status, raw, before := draws.before, after := draws.after }).1

/-- The end of `send_task` with an authenticated response. -/
def sendAuthenticated (server : Server) (peer : VerifiedPeer) (message : JsonDict) (draws : Draws) : Run (Dict Json) := do
  let pending ← .of (PendingResponse.create peer message defaultTimeout draws.responseKey draws.session draws.started)
  let response ← Traced.mapError noAuthenticatedResponse (verifiedAnswer server pending draws)
  if response.status ≠ 200 then do
    let denial ← .of response.denial
    .lift (.error (.authenticatedPeerError denial))
  else pure (Dict.set response.body (lit "response_authentication") (.obj response.authentication))

omit [Crypto] in
/-- The end of `send_task` without one. -/
def sendLegacy (server : Server) (message : JsonDict) : Run (Dict Json) := do
  .of (requireHttpUrl server.scheme)
  let (status, body) ← .exchange (.task message.items) (server.task message.items)
  .lift (legacyAnswer status body)

/-- `send_task` -/
def sendTask (server : Server) (args : TaskArgs) (draws : Draws) : Run (Dict Json) := do
  let hello ← handshake server args.verifier args.requireHardware (hex draws.nonce)
  let request ← .of (buildRequest args hello draws)
  let message := taskMessage request
  if args.requireAuthenticatedResponse then sendAuthenticated server hello.peer message draws
  else sendLegacy server message

omit [Interp] [Crypto] in
theorem attach_empty (request : PeerRequest) : attachCa2aMetadata [] request = .ok (taskMessage request).items := rfl

end

end Ca2a
