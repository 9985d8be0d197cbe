/-
`ca2a_runtime.response`: the authentication of one live response.

The caller keeps a `PendingResponse` for its request, the callee builds a
`ResponseProducer` from the request it received, and the two derive one
MAC key, bound to the digest of the request. `verify` runs under the lock
of the pending response, so its body is a `Py.Section`; what it does
between taking the key and returning is `authenticate`.

Python's limit on recursion is not modelled: `RecursionError` is caught
wherever these functions could raise it, and a value the check of the
depth admits is far from it.
-/
import Ca2a.Attestation
import Ca2a.Py.Lock

namespace Ca2a

open Py

/-- `PROFILE` -/
def responseProfile : Str := lit "ca2a-response-mac-v1"

/-- `MAX_BYTES` -/
def maxBytes : Nat := 2 ^ 20

/-- `_REQUEST_FIELDS` -/
def requestFields : Finset Str := {lit "profile", lit "peer", lit "recipient", lit "session", lit "request"}

/-- `_RESPONSE_FIELDS` -/
def responseFields : Finset Str :=
  {lit "profile", lit "request_sha256", lit "status", lit "kind", lit "body", lit "mac"}

/-- `_fail()` -/
def responseFailure : CA2AError where
  cls := .responseAuthenticationFailed
  message := lit "response authentication failed; execution outcome is unknown"

/-- `raise _fail()` -/
def responseFail {α : Type} : Result α := .error (.app responseFailure)

/-- `if not p: raise _fail()` -/
def ensure (p : Prop) [Decidable p] : Result Unit := if p then .ok () else responseFail

/-- `d[k]` -/
def item (d : Dict Json) (k : Str) : Result Json :=
  match Dict.get? d k with
  | some v => .ok v
  | none => .error (.builtin .keyError k)

/-! ## Encoding -/

/-- `_object`: a dictionary, unless a key stands twice. -/
def objectHook : PairsHook CA2AError := fun pairs => do
  let result ← pairs.foldlM (fun (result : Dict Json) kv => do
    ensure (result.has kv.1 = false)
    .ok (result.set kv.1 kv.2)) []
  .ok (.obj result)

mutual
/-- `check`, inside `encode`: nothing stands below level 64. -/
def check (depth : Nat) : Json → Result Unit
  | .arr xs => do
    ensure (depth ≤ 64)
    checkItems (depth + 1) xs
  | .obj d => do
    ensure (depth ≤ 64)
    checkFields (depth + 1) d
  | .null | .bool _ | .int _ | .float _ | .str _ => ensure (depth ≤ 64)

def checkItems (depth : Nat) : List Json → Result Unit
  | [] => .ok ()
  | x :: xs => do
    check depth x
    checkItems depth xs

def checkFields (depth : Nat) : List (Str × Json) → Result Unit
  | [] => .ok ()
  | (_, v) :: d => do
    check depth v
    checkFields depth d
end

section
variable [Interp]

/-- `encode` -/
def encode (value : Dict Json) : Result Bytes :=
  catchBuiltin (fun k => k = .typeError || k.isValueError)
    (do
      check 0 (.obj value)
      let raw ← canonicalize (.obj value)
      ensure (raw.length ≤ maxBytes)
      .ok raw)
    fun _ => responseFail

/-- `decode` -/
def decode (raw : Bytes) : Result (Dict Json) := do
  ensure (raw.length ≤ maxBytes)
  catchBuiltin ExcKind.isValueError
    (do
      let value ← loadsUtf8 objectHook raw
      match value with
      | .obj d => do
        let _ ← encode d
        .ok d
      | _ => responseFail)
    fun _ => responseFail

/-- `_hex`, of 32 octets. -/
def hexField : Json → Result Bytes
  | .str value => do
    ensure (value.length = 64)
    let raw ← catchBuiltin ExcKind.isValueError (fromHex value) fun _ => responseFail
    ensure (raw.length = 32 ∧ hex raw = value)
    .ok raw
  | _ => responseFail

variable [Crypto]

/-- `_key` -/
def responseKey (privateKey : Crypto.XKey) (publicKey : Json) (requestHash : Str) : Result Bytes := do
  let shared ← catchBuiltin ExcKind.isValueError
    (do
      let pub ← hexField publicKey
      exchangeKey privateKey pub)
    fun _ => responseFail
  let salt ← fromHex requestHash
  .ok (Crypto.hkdf (some salt) (asciiBytes "ca2a/response-mac/v1/key") shared)

/-- What `_mac` authenticates. -/
def macMessage (statement : Bytes) : Bytes := asciiBytes "ca2a/response-mac/v1/statement" ++ [0] ++ statement

/-- `_mac` -/
def responseMac (key : Bytes) (statement : Dict Json) : Result Str := do
  let raw ← encode statement
  .ok (hex (Crypto.hmac key (macMessage raw)))

end

/-! ## The producer -/

/-- The `kind` of a response. -/
def responseKind (status : Int) : Str := if status = 200 then lit "provenance" else lit "denial"

/-- `ResponseProducer` -/
structure ResponseProducer where
  envelope : Dict Json
  requestSha256 : Str
  key : Bytes

/-- The value is a dictionary. -/
def isDict : Json → Bool
  | .obj _ => true
  | _ => false

section
variable [Interp] [Crypto]

namespace ResponseProducer

/-- `ResponseProducer(private, envelope)` -/
def create (privateKey : Crypto.XKey) (envelope : JsonDict) : Result ResponseProducer := do
  let frozen ← encode envelope.items
  let envelope ← decode frozen
  ensure ((Dict.keys envelope).toFinset = requestFields)
  let profile ← item envelope (lit "profile")
  ensure (profile.str? = some responseProfile)
  let peer ← item envelope (lit "peer")
  ensure (peer.str? = some (hex (Crypto.xPublic privateKey)))
  let request ← item envelope (lit "request")
  ensure (isDict request = true)
  let session ← item envelope (lit "session")
  let _ ← hexField session
  let raw ← encode envelope
  let requestSha256 := Crypto.sha256Hex raw
  let recipient ← item envelope (lit "recipient")
  let key ← responseKey privateKey recipient requestSha256
  .ok { envelope, requestSha256, key }

omit [Interp] [Crypto] in
/-- The statement `finish` authenticates. -/
def statement (producer : ResponseProducer) (status : Int) (body : JsonDict) : Dict Json :=
  [(lit "profile", .str responseProfile), (lit "request_sha256", .str producer.requestSha256),
    (lit "status", .int status), (lit "kind", .str (responseKind status)), (lit "body", .obj body.items)]

/-- `ResponseProducer.finish` -/
def finish (producer : ResponseProducer) (status : Int) (body : JsonDict) : Result (Dict Json) := do
  let mac ← responseMac producer.key (producer.statement status body)
  let result := producer.statement status body ++ [(lit "mac", .str mac)]
  let _ ← encode result
  .ok result

end ResponseProducer

end

/-! ## The pending response -/

/-- `VerifiedResponse` -/
structure VerifiedResponse where
  status : Int
  body : Dict Json
  requestSha256 : Str
  peerAssurance : Assurance

/-- `VerifiedResponse.authentication` -/
def VerifiedResponse.authentication (response : VerifiedResponse) : Dict Json :=
  [(lit "profile", .str responseProfile), (lit "peer_assurance", .str response.peerAssurance.text),
    (lit "request_sha256", .str response.requestSha256), (lit "audience", .str (lit "live-caller-only"))]

/-- What an `AuthenticatedPeerError` carries. -/
structure AuthenticatedPeerError where
  message : Str
  code : Str
  httpStatus : Int
  responseAuthentication : Dict Json

/-- `AuthenticatedPeerError(response)` -/
def VerifiedResponse.denial [Interp] (response : VerifiedResponse) : Result AuthenticatedPeerError := do
  let error ← item response.body (lit "error")
  match error with
  | .obj error =>
    .ok
      { message := ((Dict.get? error (lit "message")).getD (.str (lit "peer denial"))).text
        code := ((Dict.get? error (lit "code")).getD (.str (lit "PEER_DENIAL"))).text
        httpStatus := response.status
        responseAuthentication := response.authentication }
  | _ => .error (.builtin .attributeError (lit "'" ++ error.typeName ++ lit "' object has no attribute 'get'"))

/-- The default of `timeout`. -/
def defaultTimeout : PyFloat := .finite 30

/-- `PendingResponse`, its clock and its lock apart. -/
structure PendingResponse where
  request : Bytes
  requestSha256 : Str
  key : Bytes
  assurance : Assurance
  started : PyFloat
  deadline : PyFloat
  used : Bool

/-- One call of `verify`: its arguments, and what the clock answers each time it is read. `none` is
a clock that raises. The status is any value, as the check of its type admits. -/
structure VerifyCall where
  status : Json
  raw : Bytes
  before : Option PyFloat
  after : Option PyFloat

/-- What `except (ValueError, TypeError, OSError)` catches. -/
def verifyErrors (k : ExcKind) : Bool := k.isValueError || k = .typeError || k = .osError

namespace PendingResponse

section
variable [Interp] [Crypto]

/-- The envelope of a request. -/
def envelope (peer : VerifiedPeer) (message : JsonDict) (ephemeral : Crypto.XKey) (session : Bytes) : Dict Json :=
  [(lit "profile", .str responseProfile), (lit "peer", .str peer.publicKey),
    (lit "recipient", .str (hex (Crypto.xPublic ephemeral))), (lit "session", .str (hex session)),
    (lit "request", .obj message.items)]

/-- `PendingResponse(peer, message, timeout=timeout, clock=clock)`, with the key and the 32 octets it
draws, and what the clock answers. -/
def create (peer : VerifiedPeer) (message : JsonDict) (timeout : PyFloat) (ephemeral : Crypto.XKey) (session : Bytes)
    (clock : Result PyFloat) : Result PendingResponse :=
  if timeout.isFinite = false ∨ ¬ ((PyFloat.finite 0).lt timeout = true ∧ timeout.le (.finite 300) = true) then
    .error (.builtin .valueError (lit "response timeout must be finite and in (0, 300]"))
  else do
    let request ← encode (envelope peer message ephemeral session)
    let requestSha256 := Crypto.sha256Hex request
    let key ← responseKey ephemeral (.str peer.publicKey) requestSha256
    let started ← clock
    if started.isFinite = false then .error (.builtin .valueError (lit "response clock must be finite"))
    else
      .ok
        { request, requestSha256, key
          assurance := peer.assurance
          started := started
          deadline := Interp.floatAdd started timeout
          used := false }

end

/-- The reading lies in the time the response is waited for. -/
def Within (pending : PendingResponse) (now : PyFloat) : Prop :=
  now.isFinite = true ∧ pending.started.le now = true ∧ now.lt pending.deadline = true

instance (pending : PendingResponse) (now : PyFloat) : Decidable (pending.Within now) :=
  inferInstanceAs (Decidable (_ ∧ _ ∧ _))

/-- `_check_deadline` -/
def checkDeadline (pending : PendingResponse) : Option PyFloat → Result Unit
  | some now => ensure (pending.Within now)
  | none => responseFail

/-- The body is one a response of this status may have. -/
def bodyFits (status : Int) (body : Dict Json) : Bool :=
  if status = 200 then
    match Dict.get? body (lit "accepted") with
    | some (.bool true) => true
    | _ => false
  else
    match Dict.get? body (lit "error") with
    | some (.obj _) => true
    | _ => false

section
variable [Interp] [Crypto]

/-- The body of `verify` once it has taken the key. -/
def authenticate (pending : PendingResponse) (key : Bytes) (call : VerifyCall) : Result VerifiedResponse :=
  catchBuiltin verifyErrors
    (do
      pending.checkDeadline call.before
      let received ← decode call.raw
      ensure ((Dict.keys received).toFinset = responseFields)
      let mac ← item received (lit "mac")
      let envelope := Dict.erase received (lit "mac")
      let _ ← hexField mac
      let profile ← item envelope (lit "profile")
      ensure (profile.str? = some responseProfile)
      let requestSha256 ← item envelope (lit "request_sha256")
      ensure (requestSha256.str? = some pending.requestSha256)
      let claimed ← item envelope (lit "status")
      match claimed, call.status with
      | .int claimed, .int status => do
        ensure (claimed = status ∧ (status = 200 ∨ 400 ≤ status ∧ status ≤ 599))
        let expected ← responseMac key envelope
        ensure (mac.str? = some expected)
        let body ← item envelope (lit "body")
        let kind ← item envelope (lit "kind")
        ensure (kind.str? = some (responseKind status))
        match body with
        | .obj body => do
          ensure (bodyFits status body = true)
          pending.checkDeadline call.after
          .ok { status, body, requestSha256 := pending.requestSha256, peerAssurance := pending.assurance }
        | _ => responseFail
      | _, _ => responseFail)
    fun _ => responseFail

/-- What runs under the lock in `verify`. -/
def verifySection (call : VerifyCall) : Section PendingResponse (Result VerifiedResponse) :=
  .step id fun pending =>
    if pending.used = true then .done responseFail
    else
      .step (fun pending => { pending with used := true }) fun _ =>
        .step (fun pending => { pending with key := [] }) fun taken =>
          .step id fun pending => .done (pending.authenticate taken.key call)

/-- `PendingResponse.verify`: what it returns or raises, and the state it leaves. -/
def verify (pending : PendingResponse) (call : VerifyCall) : Result VerifiedResponse × PendingResponse :=
  (verifySection call).run pending

end

end PendingResponse

end Ca2a
