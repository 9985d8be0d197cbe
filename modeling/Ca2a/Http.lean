/-
`ca2a_runtime.transport.client`: from HTTP replies to the answers `send_task`
works on.

`urllib` delivers a reply as a status and octets, or raises. A status outside
200 to 299 is an `HTTPError`, an `OSError`: a post takes its status and its
body, the handshake lets it through.
-/
import Ca2a.Client
import Ca2a.Py.Decode

namespace Ca2a

open Py

/-- What a request comes to. -/
inductive Reply
  | delivered (status : Int) (body : Bytes)
  | osError (text : Str)
  | httpException (text : Str)
  /-- A redirect to a `Location` that does not parse. -/
  | badLocation (text : Str)

/-- The replies of a peer to whatever is sent to it. -/
structure Replies where
  /-- The scheme of the base URL. -/
  scheme : Str
  channel : (nonce : Str) → Reply
  task : (message : Dict Json) → Reply
  authenticatedTask : (raw : Bytes) → Reply

/-- `_post_authenticated`, up to the bound on the body, which `verifiedAnswer` checks. The status of an
`HTTPError` is taken as any other. -/
def postAuthenticated : Reply → Result (Int × Bytes)
  | .delivered status body => .ok (status, body)
  | .osError t => .error (.builtin .osError t)
  | .httpException t => .error (.builtin .httpException t)
  -- `ValueError`, from parsing the URL
  | .badLocation t => .error (.builtin .valueError t)

section
variable [Interp]

/-- `_post_json` -/
def postJson (overflows : Str → Bool) (reply : Reply) : Result (Int × Json) := do
  let (status, sent) ← postAuthenticated reply
  let raw ← readBounded sent
  let body ← jsonLoads overflows raw
  .ok (status, body)

/-- `_get_json` -/
def getJson (overflows : Str → Bool) (reply : Reply) : Result Json := do
  let (status, sent) ← postAuthenticated reply
  if 200 ≤ status ∧ status < 300 then do
    let raw ← readBounded sent
    jsonLoads overflows raw
  else .error (.builtin .osError (Interp.errorText "urlopen" (strInt status)))

/-- The peer behind these replies. -/
def Replies.server (replies : Replies) (overflows : Str → Bool) : Server where
  scheme := replies.scheme
  channel nonce := getJson overflows (replies.channel nonce)
  task message := postJson overflows (replies.task message)
  authenticatedTask raw := postAuthenticated (replies.authenticatedTask raw)

section
variable (replies : Replies) (overflows : Str → Bool)

@[simp] theorem Replies.server_scheme : (replies.server overflows).scheme = replies.scheme := rfl

@[simp] theorem Replies.server_channel (nonce : Str) :
    (replies.server overflows).channel nonce = getJson overflows (replies.channel nonce) := rfl

@[simp] theorem Replies.server_task (message : Dict Json) :
    (replies.server overflows).task message = postJson overflows (replies.task message) := rfl

@[simp] theorem Replies.server_authenticatedTask (raw : Bytes) :
    (replies.server overflows).authenticatedTask raw = postAuthenticated (replies.authenticatedTask raw) := rfl

end

end

end Ca2a
