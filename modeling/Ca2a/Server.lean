/-
`ca2a_runtime.transport.server`: how the reference server answers a POST.

`do_POST` is a run that records what it reads of the body and what it sends
(`Py.Traced`). A post is what `http.server` makes of the request: the path
`urlparse` finds in its target, the length it declares, and the octets that
can be read. The node behind the handler is anything with a `handle`;
`PeerNode.served` is the one of the source. `json.loads` of octets is a
parameter, which may raise a `ValueError` or a `RecursionError`.
-/
import Ca2a.Node
import Ca2a.ResponseFacts

namespace Ca2a

open Py

/-- `TASK_PATH` -/
def taskPath : Str := lit "/ca2a/task"

/-- `AUTHENTICATED_TASK_PATH` -/
def authenticatedTaskPath : Str := lit "/ca2a/task/authenticated"

/-- `_MAX_BODY` -/
def maxBody : Nat := 2 ^ 20

/-- What a handler does at its connection. -/
inductive Act
  | read (length : Nat)
  | send (status : Int) (data : Bytes)
  deriving DecidableEq

/-- What leaves a handler as an exception. -/
inductive ServeError
  | raised (e : Exc)
  | recursionError
  | timeoutError

/-- A run of a handler. -/
abbrev Serving := Traced Act ServeError

/-- A POST. -/
structure Post where
  path : Str
  /-- The value of the first `Content-Length`. -/
  contentLength : Option Str
  /-- The octets after the header. -/
  body : Bytes
  /-- The client ends its side after them; otherwise a read for more waits until the time limit. -/
  ends : Bool

/-- `self.rfile.read(length)` -/
def Post.read (post : Post) (length : Nat) : Except ServeError Bytes :=
  if length ≤ post.body.length then .ok (post.body.take length)
  else if post.ends = true then .ok post.body
  else .error .timeoutError

/-- The errors the server answers itself. -/
def errorBody (code message : String) : Dict Json :=
  [(lit "error", .obj [(lit "code", .str (lit code)), (lit "message", .str (lit message))])]

/-! ## The declared length -/

section
variable [Interp]

omit [Interp] in
/-- `s.isascii()` -/
def isAscii (s : Str) : Bool := s.all fun c => c.val < 128

/-- `s.isdecimal()` -/
def isDecimal (s : Str) : Bool :=
  !s.isEmpty && s.all fun c => if c.val < 128 then isDigit c else (Interp.decimal c).isSome

/-- `int(s)` -/
def intOf (s : Str) : Result Int :=
  match int? s with
  | some i => .ok i
  | none => .error (.builtin .valueError (Interp.errorText "int" s))

/-! ## Answering -/

/-- `_send_json` -/
def sendResponse (status : Int) (body : Dict Json) : Serving Unit := do
  let data ← .lift ((sendJson body).mapError .raised)
  .step (.send status data) (.ok ())

/-- `except CA2AError as exc`, answered with the error. -/
def answerError : ServeError → Option (Serving Unit)
  | .raised (.app exc) => some (sendResponse exc.cls.httpStatus (serializeError exc).items)
  | _ => none

/-- `except (ValueError, RecursionError, TimeoutError, CA2AError)`, answered with a refusal. -/
def refuseBody : ServeError → Option (Serving Unit)
  | .raised (.builtin k _) => if k.isValueError = true then some refusal else none
  | .raised (.app _) | .recursionError | .timeoutError => some refusal
where
  refusal : Serving Unit := sendResponse 400 (errorBody "BAD_REQUEST" "invalid JSON")

variable [Crypto]

/-- `decode`, with the dictionary it gives. -/
def decodeDict (raw : Bytes) : Result JsonDict :=
  match h : decode raw with
  | .ok d => .ok ⟨d, wf_of_decode h⟩
  | .error e => .error e

/-- A node, as the handler sees it. -/
structure Served where
  privateKey : Crypto.XKey
  handle : (message : Dict Json) → Result PeerResult

namespace Served

/-- What `handle_authenticated` answers, before the answer is authenticated. -/
def answer (node : Served) (message : Dict Json) : Result (Int × JsonDict) :=
  match (do
    let result ← node.handle message
    serializePeerResult result) with
  | .ok body => .ok (200, body)
  | .error (.app exc) => .ok (exc.cls.httpStatus, serializeError exc)
  | .error e => .error e

/-- `PeerNode.handle_authenticated` -/
def handleAuthenticated (node : Served) (envelope : JsonDict) : Result (Int × Dict Json) := do
  let producer ← ResponseProducer.create node.privateKey envelope
  let request ← item producer.envelope (lit "request")
  let (status, body) ← node.answer (itemsOf (some request))
  let result ← producer.finish status body
  .ok (status, result)

/-- The end of `do_POST` on the authenticated path. -/
def answerAuthenticated (node : Served) (envelope : JsonDict) : Serving Unit :=
  Traced.tryElse
    (do
      let (status, body) ← .lift ((node.handleAuthenticated envelope).mapError .raised)
      sendResponse status body)
    answerError pure

/-- The end of `do_POST` on the other path. The result is serialized outside the handler. -/
def answerTask (node : Served) (message : Dict Json) : Serving Unit :=
  Traced.tryElse (.lift ((node.handle message).mapError .raised)) answerError fun result => do
    let body ← .lift ((serializePeerResult result).mapError .raised)
    sendResponse 200 body.items

/-- `do_POST` once the length is known. What `decode` gives is a dictionary, so its type is checked on the other path only. -/
def answerBody (node : Served) (jsonLoads : Bytes → Except ServeError Json) (post : Post) (length : Nat) : Serving Unit :=
  if post.path = authenticatedTaskPath then
    Traced.tryElse
      (do
        let raw ← .step (.read length) (post.read length)
        .lift ((decodeDict raw).mapError .raised))
      refuseBody node.answerAuthenticated
  else
    Traced.tryElse
      (do
        let raw ← .step (.read length) (post.read length)
        .lift (jsonLoads raw))
      refuseBody fun message =>
        match message with
        | .obj d => node.answerTask d
        | _ => sendResponse 400 (errorBody "BAD_REQUEST" "object required")

/-- `do_POST` -/
def doPost (node : Served) (jsonLoads : Bytes → Except ServeError Json) (post : Post) : Serving Unit :=
  if post.path ≠ taskPath ∧ post.path ≠ authenticatedTaskPath then
    sendResponse 404 (errorBody "NOT_FOUND" "unknown path")
  else
    let rawLength := post.contentLength.getD []
    if ¬ (isAscii rawLength = true ∧ isDecimal rawLength = true) then
      sendResponse 400 (errorBody "BAD_REQUEST" "invalid body length")
    else do
      let length ← .lift ((intOf rawLength).mapError .raised)
      if length ≤ 0 ∨ maxBody < length then sendResponse 400 (errorBody "BAD_REQUEST" "invalid body length")
      else node.answerBody jsonLoads post length.toNat

end Served

/-- The node of the source, at the times it reads. -/
def PeerNode.served (node : PeerNode) (clock : Readings) : Served where
  privateKey := node.privateKey
  handle message := node.handle message clock

theorem PeerNode.served_handleAuthenticated (node : PeerNode) (clock : Readings) (envelope : JsonDict) :
    (node.served clock).handleAuthenticated envelope = node.handleAuthenticated envelope clock := rfl

end

end Ca2a
