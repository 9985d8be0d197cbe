/-
`ca2a_runtime.node`: a callee with its keys, its policy and its
requirements, and the two ends of the reference HTTP transport its answers
pass through.

A node demands something a caller can meet: the constructor refuses an unknown
requirement, and one for hardware without a verifier, so both are fields.
-/
import Ca2a.Adapter
import Ca2a.Response

namespace Ca2a

open Py

/-- `PeerNode`. `revocationSource` is what the revocation source returns or raises where it is asked, `none` when there is none. -/
structure PeerNode [Interp] [Crypto] where
  policy : Policy
  privateKey : Crypto.XKey
  challengeSecret : Bytes
  provider : Provider := softwareProvider
  challengeTtlSeconds : Int := defaultTtlSeconds
  maxDepth : Int := 8
  requireCallerAttestation : Str := requireNone
  callerVerifier : Option Verifier := none
  requireHolderProof : Bool := true
  trustedRootIssuers : Finset Str := ∅
  revocationSource : Option (Result (Option RevocationSnapshot)) := none
  maxRevocationStaleness : Option Int := none
  requirement : requireCallerAttestation ∈ requirementValues
  appraisable : requireCallerAttestation = requireHardware → callerVerifier ≠ none

theorem requireNone_mem : requireNone ∈ requirementValues := by decide

/-- A node that requires nothing needs no verifier. -/
theorem appraisable_requireNone : requireNone = requireHardware → (none : Option Verifier) ≠ none := by decide

section
variable [Interp] [Crypto]

namespace PeerNode

/-- `channel_public_key` -/
def channelPublicKey (node : PeerNode) : Str := hex (Crypto.xPublic node.privateKey)

/-- `None if self.revocation_source is None else self.revocation_source()` -/
def revocations (node : PeerNode) : Result (Option RevocationSnapshot) :=
  match node.revocationSource with
  | none => .ok none
  | some answer => answer

/-- The arguments `handle` passes to `handle_peer_request`. -/
def config (node : PeerNode) (revocations : Option RevocationSnapshot) : PeerConfig where
  policy := node.policy
  enclavePrivateKey := some node.privateKey
  maxDepth := node.maxDepth
  challengeSecret := some node.challengeSecret
  requireCallerAttestation := node.requireCallerAttestation
  callerVerifier := node.callerVerifier
  audience := some node.channelPublicKey
  requireHolderProof := node.requireHolderProof
  trustedRootIssuers := node.trustedRootIssuers
  revocations := revocations
  maxRevocationStaleness := node.maxRevocationStaleness

/-- `PeerNode.offer` -/
def offer (node : PeerNode) (nonce : Str) : Result ChannelOffer :=
  attestChannel node.provider node.channelPublicKey nonce roleCallee

/-- `PeerNode.issue_challenge`, at the time `clock` and with the 16 octets `random`. -/
def issueChallenge (node : PeerNode) (clock : Int) (random : Bytes) : Result Str :=
  Ca2a.issueChallenge node.challengeSecret node.challengeTtlSeconds clock random

/-- What `handle` does with a request. Nothing catches what the revocation source raises. -/
def serve (node : PeerNode) (request : PeerRequest) (clock : Readings) : Result PeerResult := do
  let revocations ← node.revocations
  (handlePeerRequest request (node.config revocations) clock).result

/-- `PeerNode.handle` -/
def handle (node : PeerNode) (message : Dict Json) (clock : Readings) : Result PeerResult := do
  let request ← parsePeerRequest message
  match request with
  | none => raise .transportError (lit "message carries no cA2A extension metadata")
  | some request => node.serve request clock

theorem serve_ok_iff {node : PeerNode} {request : PeerRequest} {clock : Readings} {result : PeerResult} :
    node.serve request clock = .ok result ↔ ∃ revocations, node.revocations = .ok revocations ∧
      (handlePeerRequest request (node.config revocations) clock).result = .ok result := bind_ok_iff

/-- A call is accepted for the request its message carries. -/
theorem handle_ok_iff {node : PeerNode} {message : Dict Json} {clock : Readings} {result : PeerResult} :
    node.handle message clock = .ok result ↔
      ∃ request, parsePeerRequest message = .ok (some request) ∧ node.serve request clock = .ok result := by
  rw [handle, bind_ok_iff]
  refine ⟨fun h => ?_, fun h => ?_⟩
  · obtain ⟨parsed, hparsed, h⟩ := h
    cases parsed with
    | none => cases h
    | some request => exact ⟨request, hparsed, h⟩
  · obtain ⟨request, hparsed, h⟩ := h
    exact ⟨some request, hparsed, h⟩

/-- What `handle_authenticated` answers, before the answer is authenticated. -/
def answer (node : PeerNode) (message : Dict Json) (clock : Readings) : Result (Int × JsonDict) :=
  match (do
    let result ← node.handle message clock
    serializePeerResult result) with
  | .ok body => .ok (200, body)
  | .error (.app exc) => .ok (exc.cls.httpStatus, serializeError exc)
  | .error e => .error e

/-- `PeerNode.handle_authenticated` -/
def handleAuthenticated (node : PeerNode) (envelope : JsonDict) (clock : Readings) : Result (Int × Dict Json) := do
  let producer ← ResponseProducer.create node.privateKey envelope
  let request ← item producer.envelope (lit "request")
  let (status, body) ← node.answer (itemsOf (some request)) clock
  let result ← producer.finish status body
  .ok (status, result)

end PeerNode

end

/-! ## On the wire -/

/-- `_send_json` of the server: the octets of the body. -/
def sendJson [Interp] (body : Dict Json) : Result Bytes := utf8 (dumps (.obj body))

/-- `_MAX_RESPONSE` -/
def maxResponse : Nat := 2 ^ 20

/-- `_read_bounded` of the client. -/
def readBounded (sent : Bytes) : Result Bytes :=
  let body := sent.take (maxResponse + 1)
  if body.length > maxResponse then
    raise .transportError (lit "peer response exceeds the maximum allowed size")
      (some (lit "body must be at most " ++ decimal maxResponse ++ lit " bytes"))
  else .ok body

end Ca2a
