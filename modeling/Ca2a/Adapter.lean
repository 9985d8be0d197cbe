/-
`ca2a_runtime.transport.a2a_adapter`: from the metadata of an A2A message to
a `PeerRequest` and back, with the keys of `ca2a_runtime.transport.constants`.
-/
import Ca2a.Wire

namespace Ca2a

open Py

/-- `EXTENSION_URI` -/
def extensionUri : Str := lit "https://agentrust-io.com/extensions/ca2a/v0.1"

/-- `KEY_DELEGATION_CHAIN` -/
def keyDelegationChain : Str := extensionUri ++ lit "/delegation_chain"

/-- `KEY_REQUESTED_CAPABILITY` -/
def keyRequestedCapability : Str := extensionUri ++ lit "/requested_capability"

/-- `KEY_RECORD_ID` -/
def keyRecordId : Str := extensionUri ++ lit "/record_id"

/-- `KEY_PARENT_RECORD_HASH` -/
def keyParentRecordHash : Str := extensionUri ++ lit "/parent_record_hash"

/-- `KEY_SEALED_PAYLOAD` -/
def keySealedPayload : Str := extensionUri ++ lit "/sealed_payload"

/-- `KEY_CALLER_OFFER` -/
def keyCallerOffer : Str := extensionUri ++ lit "/caller_offer"

/-- `KEY_HOLDER_PROOF` -/
def keyHolderProof : Str := extensionUri ++ lit "/holder_proof"

/-- `KEY_CALLER_POSSESSION` -/
def keyCallerPossession : Str := extensionUri ++ lit "/caller_possession"

/-- `CA2A_METADATA_KEYS` -/
def ca2aMetadataKeys : List Str :=
  [keyDelegationChain, keyRequestedCapability, keyRecordId, keyParentRecordHash, keySealedPayload, keyCallerOffer,
    keyHolderProof, keyCallerPossession]

/-- `has_ca2a_metadata` -/
def hasCa2aMetadata (metadata : Dict Json) : Bool := ca2aMetadataKeys.any fun key => Dict.has metadata key

/-- The items of a value that is a dictionary, else none. -/
def itemsOf : Option Json → Dict Json
  | some (.obj d) => d
  | _ => []

/-- `collect_metadata`, without an override: the message's metadata wins over that of `params`. -/
def collectMetadata (messageOrRequest : Dict Json) : Dict Json :=
  match Dict.get? messageOrRequest (lit "params") with
  | some (.obj params) =>
    let collected := Dict.update [] (itemsOf (Dict.get? params (lit "metadata")))
    match Dict.get? params (lit "message") with
    | some (.obj msg) => Dict.update collected (itemsOf (Dict.get? msg (lit "metadata")))
    | _ => collected
  | _ => Dict.update [] (itemsOf (Dict.get? messageOrRequest (lit "metadata")))

section
variable [Interp]

/-- One hop of the chain. -/
def parseHop (i : Nat) (hop : Json) : Result DelegationCredential :=
  match hop with
  | .obj _ =>
    catchClass .invalidCredential (DelegationCredential.fromDict hop) fun exc =>
      raise .transportError (lit "delegation_chain hop " ++ decimal i ++ lit " is malformed") (some exc.message)
  | _ =>
    raise .transportError (lit "delegation_chain hop " ++ decimal i ++ lit " must be an object")
      (some (lit "got " ++ hop.typeName))

/-- The hops from the `i`-th on. -/
def parseHops (i : Nat) : List Json → Result (List DelegationCredential)
  | [] => .ok []
  | hop :: hops => do
    let credential ← parseHop i hop
    let chain ← parseHops (i + 1) hops
    .ok (credential :: chain)

omit [Interp] in
/-- A non-empty string, or the field's own error. -/
def requiredText (message : String) : Option Json → Result Str
  | some (.str (c :: s)) => .ok (c :: s)
  | _ => raise .transportError (lit message)

omit [Interp] in
/-- A field that is absent or null parses to nothing. -/
def optionalField {α : Type} (value : Option Json) (parse : Json → Result α) : Result (Option α) :=
  match value with
  | none | some .null => .ok none
  | some j => do
    let a ← parse j
    .ok (some a)

/-- The chain, a non-empty list of credentials. -/
def chainField : Option Json → Result (List DelegationCredential)
  | none | some .null => raise .transportError (lit "cA2A metadata present but delegation_chain is missing")
  | some (.arr (hop :: hops)) => parseHops 0 (hop :: hops)
  | some _ => raise .transportError (lit "delegation_chain must be a non-empty JSON array of credential objects")

omit [Interp] in
/-- The hash of the parent record. The key must be there; null stands for a root hop. -/
def parentHashField : Option Json → Result (Option Str)
  | none =>
    raise .transportError
      (lit "parent_record_hash key is required when cA2A metadata is present (use null for a root hop)")
  | some .null => .ok none
  | some (.str s) => .ok (some s)
  | some _ => raise .transportError (lit "parent_record_hash must be a string or null")

def sealedField : Json → Result Bytes
  | .str s => b64urlDecode (lit "sealed_payload") (.str s)
  | _ => raise .transportError (lit "sealed_payload must be a base64url string or null")

omit [Interp] in
def possessionField (data : Json) : Result CallerPossession :=
  catchClass .attestationFailed (CallerPossession.fromDict data) fun exc =>
    raise .transportError (lit "malformed caller_possession") (some exc.message)

/-- `parse_peer_request`, without an override. -/
def parsePeerRequest (messageOrRequest : Dict Json) : Result (Option PeerRequest) :=
  let metadata := collectMetadata messageOrRequest
  if hasCa2aMetadata metadata = false then .ok none
  else do
    let chain ← chainField (Dict.get? metadata keyDelegationChain)
    let requestedCapability ← requiredText "requested_capability must be a non-empty string"
      (Dict.get? metadata keyRequestedCapability)
    let recordId ← requiredText "record_id must be a non-empty string" (Dict.get? metadata keyRecordId)
    let parentRecordHash ← parentHashField (Dict.get? metadata keyParentRecordHash)
    let sealedPayload ← optionalField (Dict.get? metadata keySealedPayload) sealedField
    let callerOffer ← optionalField (Dict.get? metadata keyCallerOffer) parseChannelOffer
    let callerPossession ← optionalField (Dict.get? metadata keyCallerPossession) possessionField
    let holderProof ← optionalField (Dict.get? metadata keyHolderProof) HolderProof.fromDict
    .ok (some
      { chain, requestedCapability, recordId, sealedPayload, parentRecordHash, callerOffer, holderProof
        callerPossession })

end

/-! ## Attaching -/

/-- `_credential_to_dict` -/
def credentialToDict (cred : DelegationCredential) : Dict Json :=
  Dict.set (itemsOf (some cred.body)) (lit "signature") (.str cred.signature)

/-- `meta[key] = value`, or `meta.pop(key, None)` when there is no value. -/
def putOrPop (metadata : Dict Json) (key : Str) : Option Json → Dict Json
  | none => Dict.erase metadata key
  | some value => Dict.set metadata key value

/-- The metadata of a container, with `write` applied to it. One without metadata gets a new map. -/
def writeMetadata (container : Dict Json) (write : Dict Json → Dict Json) : Result (Dict Json) :=
  match Dict.get? container (lit "metadata") with
  | none => .ok (Dict.set container (lit "metadata") (.obj (write [])))
  | some (.obj metadata) => .ok (Dict.set container (lit "metadata") (.obj (write metadata)))
  | some _ => raise .transportError (lit "message.metadata must be a mapping when attaching cA2A fields")

/-- `_attach_target`, with `write` applied to the map it returns. -/
def attachTarget (out : Dict Json) (write : Dict Json → Dict Json) : Result (Dict Json) :=
  match Dict.get? out (lit "params") with
  | some (.obj params) =>
    match Dict.get? params (lit "message") with
    | some (.obj msg) => do
      let msg ← writeMetadata msg write
      .ok (Dict.set out (lit "params") (.obj (Dict.set params (lit "message") (.obj msg))))
    | _ => do
      let params ← writeMetadata params write
      .ok (Dict.set out (lit "params") (.obj params))
  | _ => writeMetadata out write

/-- What `attach_ca2a_metadata` writes into the map. -/
def writeFields (request : PeerRequest) (metadata : Dict Json) : Dict Json :=
  let metadata := Dict.set metadata keyDelegationChain (.arr (request.chain.map fun c => .obj (credentialToDict c)))
  let metadata := Dict.set metadata keyRequestedCapability (.str request.requestedCapability)
  let metadata := Dict.set metadata keyRecordId (.str request.recordId)
  let metadata := Dict.set metadata keyParentRecordHash (optStr request.parentRecordHash)
  let metadata := putOrPop metadata keySealedPayload (request.sealedPayload.map fun b => .str (b64urlEncode b))
  let metadata := putOrPop metadata keyCallerOffer (request.callerOffer.map fun o => .obj (serializeChannelOffer o))
  let metadata := putOrPop metadata keyHolderProof (request.holderProof.map fun p => .obj p.toDict)
  putOrPop metadata keyCallerPossession (request.callerPossession.map fun p => .obj p.toDict)

/-- `attach_ca2a_metadata`. The source writes into a deep copy, so the message is a value here. -/
def attachCa2aMetadata (message : Dict Json) (request : PeerRequest) : Result (Dict Json) :=
  attachTarget message (writeFields request)

end Ca2a
