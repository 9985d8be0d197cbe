/-
When `send_task` keeps its error contract: it returns a JSON object or raises
a `CA2AError`, and with an authenticated response required, once the task is
submitted, it raises nothing but an `AuthenticatedPeerError` or a
`ResponseAuthenticationFailed`.

A peer breaks it in four ways. It replies to the handshake, or to the task on
the legacy endpoint, with an error or with what is not JSON, which no handler
catches. It answers the task with a value whose type the client does not look
at. It sends an unpaired surrogate in a text that the caller signs. And it
redirects the task to a `Location` that does not parse. `Conforms` excludes
these, each where the call gets that far, and nothing else.
-/
import Ca2a.ClientFacts
import Ca2a.Http
import Ca2a.NodeErrors
import Ca2a.ResponseDelivery

namespace Ca2a

open Py

/-! ## The contract -/

/-- The exception is a `CA2AError`. -/
def SendError.IsCA2A : SendError → Prop
  | .raised e => e.isCA2A
  | .authenticatedPeerError _ | .peerError _ => True

/-- The exception is an `AuthenticatedPeerError` or a `ResponseAuthenticationFailed`. -/
def SendError.IsFinal : SendError → Prop
  | .raised e => e.isClass .responseAuthenticationFailed
  | .authenticatedPeerError _ => True
  | .peerError _ => False

theorem SendError.IsFinal.isCA2A {e : SendError} (h : e.IsFinal) : e.IsCA2A := by
  cases e with
  | raised e =>
    cases e with
    | builtin k t => exact h.elim
    | app e => exact trivial
  | authenticatedPeerError e => exact trivial
  | peerError e => exact trivial

/-- The run keeps the contract. What it returns is a dictionary by its type. -/
structure KeepsContract (run : Run (Dict Json)) : Prop where
  raises : ∀ e, run.result = .error e → e.IsCA2A
  submitted : ∀ raw, .started (.authenticatedTask raw) ∈ run.trace → ∀ e, run.result = .error e → e.IsFinal

theorem keepsContract_of_ok {run : Run (Dict Json)} {body : Dict Json} (h : run.result = .ok body) : KeepsContract run where
  raises e he := by
    rw [h] at he
    cases he
  submitted _ _ e he := by
    rw [h] at he
    cases he

/-! ## What it asks of a peer -/

/-- The field `error` of a denial is an object, if it is there. -/
def ErrorFits (body : Dict Json) : Prop := ∀ err, Dict.get? body (lit "error") = some err → isDict err = true

section
variable [Interp]

/-- The body is over the client's bound, or it is JSON with this property. -/
def ReadsAs (overflows : Str → Bool) (sent : Bytes) (P : Json → Prop) : Prop :=
  maxBytes < sent.length ∨ ∃ body, jsonLoads (ε := CA2AError) overflows sent = .ok body ∧ P body

/-- A reply to the handshake: a success, with JSON. -/
def Reply.Greets (reply : Reply) (overflows : Str → Bool) : Prop :=
  ∃ status sent, reply = .delivered status sent ∧ 200 ≤ status ∧ status < 300 ∧ ReadsAs overflows sent fun _ => True

/-- A legacy reply to the task: an object, in a denial one with a proper error. -/
def Reply.Answers (reply : Reply) (overflows : Str → Bool) : Prop :=
  ∃ status sent, reply = .delivered status sent ∧
    ReadsAs overflows sent fun body => ∃ d, body = .obj d ∧ (status ≠ 200 → ErrorFits d)

variable [Crypto]

/-- The caller holds the key of the leaf, its own texts can be encoded, and its clock can be read. -/
structure TaskArgs.Valid (args : TaskArgs) (draws : Draws) : Prop where
  leaf : ∃ leaf, args.chain.getLast? = some leaf ∧ hex (Crypto.edPublic args.holderKey) = leaf.subject ∧
    Clean leaf.credentialId
  capability : Clean args.requestedCapability
  recordId : Clean args.recordId
  parent : ∀ h ∈ args.parentRecordHash, Clean h
  clock : ∃ now, draws.started = .ok now ∧ now.isFinite = true

/-- The offer of the caller, if it makes one. -/
def TaskArgs.offer (args : TaskArgs) (draws : Draws) (challenge : Str) : Result (Option ChannelOffer) :=
  optional (fun provider => offerChannel provider draws.callerKey challenge roleCaller) args.callerProvider

/-- Once the payload is sealed, the caller's platform reports on the challenge or refuses it, and what is signed
then has no unpaired surrogate. -/
def TaskArgs.Encodes (args : TaskArgs) (draws : Draws) (peer : VerifiedPeer) (challenge : Str) : Prop :=
  (∀ payload ∈ args.payload, ∃ blob, sealToPeer peer draws.sealKey draws.sealNonce payload = .ok blob) →
    Contained (args.offer draws challenge) ∧
      ∀ offer, args.offer draws challenge = .ok offer → Clean peer.publicKey ∧ Clean challenge

/-- The handshake reply holds this offer. -/
def Offered (replies : Replies) (overflows : Str → Bool) (draws : Draws) (body : Dict Json) (offer : ChannelOffer) :
    Prop :=
  replies.scheme ∈ allowedSchemes ∧ getJson overflows (replies.channel (hex draws.nonce)) = .ok (.obj body) ∧
    parseChannelOffer (.obj body) = .ok offer

/-- The handshake reply holds an offer that the caller accepts. -/
structure Greeted (replies : Replies) (overflows : Str → Bool) (args : TaskArgs) (draws : Draws) (hello : Handshake) :
    Prop where
  accepted : ∃ body offer, Offered replies overflows draws body offer ∧
    verifyOffer offer (hex draws.nonce) args.verifier args.requireHardware roleCallee = .ok hello.peer ∧
    parseChallenge body = .ok hello.challenge

/-- What the contract asks of the replies. -/
structure Conforms (replies : Replies) (overflows : Str → Bool) (args : TaskArgs) (draws : Draws) : Prop where
  handshake : replies.scheme ∈ allowedSchemes → (replies.channel (hex draws.nonce)).Greets overflows
  /-- The verifier appraises or refuses. -/
  appraisal : ∀ body offer, Offered replies overflows draws body offer →
    Contained (verifyOffer offer (hex draws.nonce) args.verifier args.requireHardware roleCallee)
  texts : ∀ hello challenge, Greeted replies overflows args draws hello → hello.challenge = some challenge →
    args.Encodes draws hello.peer challenge
  task : ∀ hello request, Greeted replies overflows args draws hello → buildRequest args hello draws = .ok request →
    args.requireAuthenticatedResponse = false → (replies.task (taskMessage request).items).Answers overflows
  authenticatedTask : ∀ hello request pending, Greeted replies overflows args draws hello →
    buildRequest args hello draws = .ok request → args.requireAuthenticatedResponse = true →
    PendingResponse.create hello.peer (taskMessage request) defaultTimeout draws.responseKey draws.session draws.started =
      .ok pending →
    ∀ t, replies.authenticatedTask pending.request ≠ .badLocation t

end

/-! ## Runs that raise `CA2AError`s only -/

section
variable {α β : Type}

/-- Whatever the run raises is a `CA2AError`. -/
def RaisesCA2A (run : Run α) : Prop := Spec run.result (fun _ => True) SendError.IsCA2A

theorem raisesCA2A_bind_iff {run : Run α} {next : α → Run β} :
    RaisesCA2A (run >>= next) ↔ RaisesCA2A run ∧ ∀ a, run.result = .ok a → RaisesCA2A (next a) := by
  unfold RaisesCA2A
  rw [Traced.bind_result, spec_bind_iff]

@[simp] theorem raisesCA2A_of_iff {x : Result α} : RaisesCA2A (.of x) ↔ Contained x := spec_mapError_iff

@[simp] theorem raisesCA2A_exchange_iff {sent : Exchange} {x : Result α} :
    RaisesCA2A (.exchange sent x) ↔ Contained x := by
  rw [RaisesCA2A, Run.exchange_result, spec_mapError_iff]
  exact Iff.rfl

@[simp] theorem raised_ok (a : α) : (Except.ok a : Result α).mapError SendError.raised = .ok a := rfl

@[simp] theorem raisesCA2A_pure (a : α) : RaisesCA2A (pure a : Run α) := trivial

@[simp] theorem requireHttpUrl_ok_iff {scheme : Str} {u : Unit} :
    requireHttpUrl scheme = .ok u ↔ scheme ∈ allowedSchemes := by
  unfold requireHttpUrl
  split <;> simp_all

theorem contained_requireHttpUrl (scheme : Str) : Contained (requireHttpUrl scheme) := by
  unfold requireHttpUrl
  exact contained_ite (fun _ => contained_raise _ _ _) fun _ => contained_ok _

/-- A request leaves the client only for an HTTP(S) URL. -/
theorem raisesCA2A_requireHttpUrl_iff {scheme : Str} {next : Unit → Run α} :
    RaisesCA2A (Run.of (requireHttpUrl scheme) >>= next) ↔ (scheme ∈ allowedSchemes → RaisesCA2A (next ())) := by
  rw [raisesCA2A_bind_iff, raisesCA2A_of_iff, and_iff_right (contained_requireHttpUrl scheme)]
  simp only [Run.of_result, mapError_ok_iff, requireHttpUrl_ok_iff]
  exact ⟨fun h hs => h () hs, fun h _ hs => h hs⟩

end

/-! ## Replies -/

theorem contained_readBounded (sent : Bytes) : Contained (readBounded sent) := by
  rw [readBounded_eq]
  exact contained_ite (fun _ => contained_raise _ _ _) fun _ => contained_ok _

section
variable [Interp] {overflows : Str → Bool}

theorem contained_jsonLoads_iff {sent : Bytes} :
    Contained (jsonLoads overflows sent) ↔ ∃ body, jsonLoads (ε := CA2AError) overflows sent = .ok body := by
  cases h : jsonLoads (ε := CA2AError) overflows sent with
  | ok body => simp
  | error e =>
    obtain ⟨k, t, rfl, _⟩ := (jsonLoads_spec overflows sent).of_error h
    simp

/-- The JSON a body is read as, when it is read. -/
theorem readsAs_iff {sent : Bytes} {P : Json → Prop} :
    ReadsAs overflows sent P ↔
      (∀ raw, readBounded sent = .ok raw → Contained (jsonLoads overflows raw)) ∧
        ∀ raw body, readBounded sent = .ok raw → jsonLoads (ε := CA2AError) overflows raw = .ok body → P body := by
  simp only [readBounded_ok_iff, contained_jsonLoads_iff]
  constructor
  · intro h
    rcases h with hlong | ⟨body, hbody, hP⟩
    · exact ⟨fun _ hraw => by omega, fun _ _ hraw => by omega⟩
    · refine ⟨fun raw hraw => hraw.2 ▸ ⟨body, hbody⟩, fun raw body' hraw hbody' => ?_⟩
      rw [hraw.2] at hbody'
      exact Except.ok.inj (hbody.symm.trans hbody') ▸ hP
  · intro h
    obtain ⟨hread, hP⟩ := h
    rcases Nat.lt_or_ge maxBytes sent.length with hlong | hshort
    · exact .inl hlong
    · obtain ⟨body, hbody⟩ := hread sent ⟨hshort, rfl⟩
      exact .inr ⟨body, hbody, hP sent body ⟨hshort, rfl⟩ hbody⟩

theorem contained_getJson_iff {reply : Reply} : Contained (getJson overflows reply) ↔ reply.Greets overflows := by
  cases reply with
  | delivered status sent =>
    simp only [getJson, postAuthenticated, ok_bind, Reply.Greets, Reply.delivered.injEq]
    split
    · rename_i hsuccess
      rw [contained_bind_iff, and_iff_right (contained_readBounded sent)]
      constructor
      · intro h
        exact ⟨status, sent, ⟨rfl, rfl⟩, hsuccess.1, hsuccess.2, readsAs_iff.mpr ⟨h, fun _ _ _ _ => trivial⟩⟩
      · intro h
        obtain ⟨_, _, ⟨rfl, rfl⟩, _, _, hread⟩ := h
        exact (readsAs_iff.mp hread).1
    · rename_i hfailure
      refine iff_of_false (not_contained_builtin _ _) fun h => hfailure ?_
      obtain ⟨_, _, ⟨rfl, rfl⟩, hlow, hhigh, _⟩ := h
      exact ⟨hlow, hhigh⟩
  | osError t => simp [getJson, postAuthenticated, Reply.Greets]
  | httpException t => simp [getJson, postAuthenticated, Reply.Greets]
  | badLocation t => simp [getJson, postAuthenticated, Reply.Greets]

/-! ## The handshake -/

omit [Interp] in
theorem contained_parseChallenge (body : Dict Json) : Contained (parseChallenge body) := by
  unfold parseChallenge
  split
  · exact contained_ok _
  · exact contained_ok _
  · exact contained_raise _ _ _

variable [Crypto] {replies : Replies} {args : TaskArgs} {draws : Draws} {hello : Handshake}

theorem raisesCA2A_handshake_iff :
    RaisesCA2A (handshake (replies.server overflows) args.verifier args.requireHardware (hex draws.nonce)) ↔
      (replies.scheme ∈ allowedSchemes → (replies.channel (hex draws.nonce)).Greets overflows) ∧
        ∀ body offer, Offered replies overflows draws body offer →
          Contained (verifyOffer offer (hex draws.nonce) args.verifier args.requireHardware roleCallee) := by
  unfold handshake
  rw [raisesCA2A_requireHttpUrl_iff]
  simp only [Offered, raisesCA2A_bind_iff, raisesCA2A_exchange_iff, raisesCA2A_of_iff,
    Run.exchange_result, Run.of_result, mapError_ok_iff, contained_parseChannelOffer, contained_parseChallenge,
    raisesCA2A_pure, implies_true, and_true, true_and]
  constructor
  · intro h
    refine ⟨fun hscheme => contained_getJson_iff.mp (h hscheme).1, fun body offer hoffered => ?_⟩
    obtain ⟨hscheme, hbody, hoffer⟩ := hoffered
    exact (h hscheme).2 _ hbody _ hoffer
  · intro h hscheme
    refine ⟨contained_getJson_iff.mpr (h.1 hscheme), fun body hbody offer hoffer => ?_⟩
    -- an offer parses off a dictionary only
    cases body with
    | obj body => exact h.2 body offer ⟨hscheme, hbody, hoffer⟩
    | null | bool _ | int _ | float _ | str _ | arr _ => cases hoffer

theorem handshake_ok_iff_greeted :
    (handshake (replies.server overflows) args.verifier args.requireHardware (hex draws.nonce)).result = .ok hello ↔
      Greeted replies overflows args draws hello := by
  constructor
  · intro h
    simp only [handshake, Traced.bind_result, Run.of_result, Run.exchange_result, Traced.pure_result, bind_ok_iff,
      mapError_ok_iff, requireHttpUrl_ok_iff, Except.ok.injEq] at h
    obtain ⟨_, hscheme, body, hbody, offer, hoffer, peer, hpeer, challenge, hchallenge, rfl⟩ := h
    cases body with
    | obj body => exact ⟨body, offer, ⟨hscheme, hbody, hoffer⟩, hpeer, hchallenge⟩
    | null | bool _ | int _ | float _ | str _ | arr _ => cases hoffer
  · intro h
    obtain ⟨body, offer, ⟨hscheme, hbody, hoffer⟩, hpeer, hchallenge⟩ := h.accepted
    simp only [handshake, Traced.bind_result, Run.of_result, Run.exchange_result, Traced.pure_result, bind_ok_iff,
      mapError_ok_iff, requireHttpUrl_ok_iff, Except.ok.injEq]
    exact ⟨(), hscheme, .obj body, hbody, offer, hoffer, hello.peer, hpeer, hello.challenge, hchallenge, rfl⟩

/-! ## The request -/

omit [Interp] [Crypto] in
theorem exists_optional_iff {α β : Type} {f : α → Result β} {o : Option α} :
    (∃ r, optional f o = .ok r) ↔ ∀ a ∈ o, ∃ b, f a = .ok b := by
  cases o with
  | none => simp [optional]
  | some a => simp [optional, bind_ok_iff]

omit [Interp] [Crypto] in
theorem contained_optional {α β : Type} {f : α → Result β} {o : Option α} (h : ∀ a ∈ o, Contained (f a)) :
    Contained (optional f o) := by
  cases o with
  | none => exact contained_ok _
  | some a => exact contained_bind_iff.mpr ⟨h a rfl, fun _ _ => contained_ok _⟩

theorem contained_sealToPeer (peer : VerifiedPeer) (key : Crypto.XKey) (nonce payload : Bytes) :
    Contained (sealToPeer peer key nonce payload) := by
  have hcaught : ∀ t, Catches ExcKind.isValueError (.builtin .valueError t) := fun t => .inr ⟨_, t, rfl, rfl⟩
  refine (contained_catchBuiltin_iff fun _ => contained_raise _ _ _).mpr ?_
  exact (fromHex_spec hcaught _).bind fun pub _ => (exchangeKey_spec hcaught key pub).bind fun _ _ => trivial

/-- A proof of possession whose transcript can be encoded is contained. -/
theorem contained_proveCallerPossession {key : Crypto.XKey} {callee : Str} {transcript : Dict Json}
    (h : Canonical (.obj transcript)) : Contained (proveCallerPossession key callee transcript) := by
  unfold proveCallerPossession
  refine contained_ite (fun _ => contained_raise _ _ _) fun _ => contained_ite (fun _ => contained_raise _ _ _) fun _ => ?_
  exact contained_bind_iff.mpr ⟨contained_possessionMac_iff.mpr fun _ => h, fun _ _ => contained_ok _⟩

/-- A holder proof by the key of the leaf is contained when its texts can be encoded. -/
theorem contained_buildHolderProof_iff {key : Crypto.EdKey} {leaf : DelegationCredential} {challenge : Str} {p : HolderParams}
    (hkey : hex (Crypto.edPublic key) = leaf.subject) :
    Contained (buildHolderProof key leaf challenge p) ↔ Canonical (proofBody (p.fields leaf challenge)) := by
  unfold buildHolderProof
  rw [if_neg (not_not.mpr hkey), contained_bind_iff, contained_canonicalize_iff]
  exact and_iff_left fun _ _ => contained_ok _

/-- The offer of a caller is of the key it drew. -/
theorem TaskArgs.offer_key {challenge : Str} {offer : Option ChannelOffer} (h : args.offer draws challenge = .ok offer) :
    ∀ o ∈ offer, o.channelPublicKey = hex (Crypto.xPublic draws.callerKey) := by
  unfold TaskArgs.offer at h
  cases hprovider : args.callerProvider with
  | none =>
    rw [hprovider] at h
    cases h
    simp
  | some provider =>
    simp only [hprovider, optional, bind_ok_iff, offerChannel, attestChannel, Except.ok.injEq] at h
    obtain ⟨o, ⟨report, _, ho⟩, rfl⟩ := h
    split at ho
    · cases ho
    · cases ho
      simp

/-- **When a request can be built**, but for what is refused. -/
theorem contained_buildRequest_iff (hv : args.Valid draws) :
    Contained (buildRequest args hello draws) ↔
      ∀ challenge, hello.challenge = some challenge → args.Encodes draws hello.peer challenge := by
  unfold buildRequest
  cases hello.challenge with
  | none => simp
  | some challenge =>
    simp only [Option.some.injEq, forall_eq']
    obtain ⟨leaf, hleaf, hkey, hid⟩ := hv.leaf
    have hproof : ∀ blob offer, args.offer draws challenge = .ok offer →
        (Canonical (proofBody ((args.holderParams hello.peer blob offer).fields leaf challenge)) ↔
          Clean hello.peer.publicKey ∧ Clean challenge) := by
      intro blob offer hoffer
      have hcaller : ∀ s ∈ offer.map (·.channelPublicKey), Clean s := by
        intro s hs
        obtain ⟨o, ho, rfl⟩ := Option.mem_map.mp hs
        rw [TaskArgs.offer_key hoffer o ho]
        exact clean_hex _
      have hsubject : Clean leaf.subject := hkey ▸ clean_hex _
      rw [canonical_proofBody_iff]
      exact ⟨fun h => ⟨h.1, h.2.1⟩, fun h => ⟨h.1, h.2, hid, hsubject, hv.capability, hv.recordId, hcaller, hv.parent⟩⟩
    rw [contained_bind_iff, and_iff_right (contained_optional fun _ _ => contained_sealToPeer _ _ _ _)]
    constructor
    · intro h hseals
      obtain ⟨blob, hblob⟩ := exists_optional_iff.mpr hseals
      obtain ⟨hoffer, hrest⟩ := contained_bind_iff.mp (h blob hblob)
      refine ⟨hoffer, fun offer ho => ?_⟩
      have hbuilt := hrest offer ho
      rw [chainLeaf_ok_iff.mpr hleaf, ok_bind, contained_bind_iff, contained_buildHolderProof_iff hkey] at hbuilt
      exact (hproof blob offer ho).mp hbuilt.1
    · intro h blob hblob
      obtain ⟨hoffer, htexts⟩ := h (exists_optional_iff.mp ⟨blob, hblob⟩)
      refine contained_bind_iff.mpr ⟨hoffer, fun offer ho => ?_⟩
      rw [chainLeaf_ok_iff.mpr hleaf, ok_bind, contained_bind_iff, contained_buildHolderProof_iff hkey]
      refine ⟨(hproof blob offer ho).mpr (htexts offer ho), fun proof hsigned => ?_⟩
      refine contained_bind_iff.mpr ⟨contained_optional fun o hmem => ?_, fun _ _ => contained_ok _⟩
      obtain ⟨_, _, _, rfl⟩ := buildHolderProof_ok hsigned
      refine contained_proveCallerPossession (canonical_transcript_iff.mpr ?_)
      obtain ⟨hpeer, hchallenge⟩ := htexts offer ho
      rw [TaskArgs.offer_key ho o hmem]
      exact ⟨hchallenge, hpeer, clean_hex _, hid, hkey ▸ clean_hex _, hv.capability, hv.recordId, hv.parent, by simp⟩

/-! ## The task on the legacy endpoint -/

omit [Interp] [Crypto] in
theorem errorFits_iff {body : Dict Json} :
    ErrorFits body ↔ isDict ((Dict.get? body (lit "error")).getD (.obj [])) = true := by
  unfold ErrorFits
  cases Dict.get? body (lit "error") with
  | none => simp [isDict]
  | some err => simp

omit [Crypto] in
theorem rehydrateError_iff {err : Json} :
    Spec (rehydrateError err) (fun _ => True) SendError.IsCA2A ↔ isDict err = true := by
  cases err with
  | obj d => exact iff_of_true trivial rfl
  | null | bool _ | int _ | float _ | str _ | arr _ => exact iff_of_false (fun h => h) (by simp [isDict])

omit [Crypto] in
/-- The client looks at the type of neither the body nor its error. -/
theorem legacyAnswer_iff {status : Int} {body : Json} :
    Spec (legacyAnswer status body) (fun _ => True) SendError.IsCA2A ↔
      ∃ d, body = .obj d ∧ (status ≠ 200 → ErrorFits d) := by
  unfold legacyAnswer
  split
  · rename_i hstatus
    rw [spec_bind_iff, spec_mapError_iff]
    cases body with
    | obj d =>
      have hraised : ∀ err, Spec (rehydrateError err >>= fun e => (.error (.peerError e) : Except SendError (Dict Json)))
          (fun _ => True) SendError.IsCA2A ↔ isDict err = true := by
        intro err
        rw [spec_bind_iff, rehydrateError_iff]
        exact and_iff_left fun _ _ => trivial
      simp only [getDefault, spec_ok, true_and, Except.mapError, Except.ok.injEq, forall_eq', hraised, Json.obj.injEq,
        ← errorFits_iff]
      exact ⟨fun h => ⟨d, rfl, fun _ => h⟩, fun h => by
        obtain ⟨_, rfl, h⟩ := h
        exact h hstatus⟩
    | null | bool _ | int _ | float _ | str _ | arr _ => simp [getDefault, SendError.IsCA2A, Exc.isCA2A]
  · rename_i hstatus
    rw [spec_mapError_iff]
    cases body with
    | obj d => exact iff_of_true trivial ⟨d, rfl, fun h => absurd h hstatus⟩
    | null | bool _ | int _ | float _ | str _ | arr _ =>
      simp [withoutResponseAuthentication, SendError.IsCA2A, Exc.isCA2A]

omit [Crypto] in
theorem raisesCA2A_sendLegacy_iff {message : JsonDict} (hscheme : replies.scheme ∈ allowedSchemes) :
    RaisesCA2A (sendLegacy (replies.server overflows) message) ↔ (replies.task message.items).Answers overflows := by
  unfold sendLegacy
  rw [raisesCA2A_requireHttpUrl_iff, Replies.server_scheme, imp_iff_right hscheme, raisesCA2A_bind_iff,
    raisesCA2A_exchange_iff, Run.exchange_result, Replies.server_task]
  cases replies.task message.items with
  | delivered status sent =>
    have hanswered : (∀ answer, (postJson overflows (.delivered status sent)).mapError SendError.raised = .ok answer →
        RaisesCA2A (Traced.lift (legacyAnswer answer.1 answer.2) : Run (Dict Json))) ↔
        ∀ raw body, readBounded sent = .ok raw → jsonLoads (ε := CA2AError) overflows raw = .ok body →
          ∃ d, body = .obj d ∧ (status ≠ 200 → ErrorFits d) := by
      simp only [postJson, postAuthenticated, ok_bind, mapError_ok_iff, bind_ok_iff, Except.ok.injEq]
      constructor
      · intro h raw body hraw hbody
        exact legacyAnswer_iff.mp (h (status, body) ⟨raw, hraw, body, hbody, rfl⟩)
      · intro h answer hanswer
        obtain ⟨raw, hraw, body, hbody, rfl⟩ := hanswer
        exact legacyAnswer_iff.mpr (h raw body hraw hbody)
    have hread : Contained (postJson overflows (.delivered status sent)) ↔
        ∀ raw, readBounded sent = .ok raw → Contained (jsonLoads overflows raw) := by
      simp only [postJson, postAuthenticated, ok_bind, contained_bind_iff, contained_readBounded, contained_ok,
        implies_true, and_true, true_and]
    rw [hanswered, hread, ← readsAs_iff]
    exact ⟨fun h => ⟨status, sent, rfl, h⟩, fun h => by
      obtain ⟨_, _, heq, h⟩ := h
      cases heq
      exact h⟩
  | osError t => simp [postJson, postAuthenticated, Reply.Answers]
  | httpException t => simp [postJson, postAuthenticated, Reply.Answers]
  | badLocation t => simp [postJson, postAuthenticated, Reply.Answers]

/-! ## The task with an authenticated response -/

/-- A client whose clock can be read is refused a pending response in one way. -/
theorem PendingResponse.create_spec (hv : args.Valid draws) (peer : VerifiedPeer) (message : JsonDict) :
    Spec (create peer message defaultTimeout draws.responseKey draws.session draws.started) (fun _ => True) Fails := by
  obtain ⟨now, hnow, hfinite⟩ := hv.clock
  unfold create
  rw [if_neg (by decide)]
  refine (encode_spec _).bind fun request _ => (responseKey_spec _ _ request).bind fun key _ => ?_
  rw [hnow, ok_bind, if_neg (by simp [hfinite])]
  trivial

/-- A verified response has the body its status asks for. -/
theorem PendingResponse.verify_spec (pending : PendingResponse) (call : VerifyCall) :
    Spec (pending.verify call).1 (fun response => bodyFits response.status response.body = true) Fails := by
  rw [verify_eq]
  split
  · exact responseFail_spec _
  · cases h : pending.authenticate pending.key call with
    | ok response =>
      obtain ⟨_, _, status, body, _, _, _, _, _, _, _, hfits, _, rfl⟩ := authenticate_ok_iff.mp h
      exact hfits
    | error e => exact (authenticate_spec pending _ call).of_error h

omit [Crypto] in
/-- A denial that was verified is reported as one. -/
theorem denial_of_fits {response : VerifiedResponse} (hstatus : response.status ≠ 200)
    (h : PendingResponse.bodyFits response.status response.body = true) : ∃ denial, response.denial = .ok denial := by
  unfold PendingResponse.bodyFits at h
  rw [if_neg hstatus] at h
  split at h
  · rename_i error herror
    rw [VerifiedResponse.denial, item_ok_iff.mpr herror, ok_bind]
    exact ⟨_, rfl⟩
  · cases h

/-- What the handler around the exchange turns into a `ResponseAuthenticationFailed`, and that error itself. -/
def Unanswered : SendError → Prop
  | .raised (.builtin k _) => k = .osError ∨ k = .httpException
  | .raised (.app e) => e.cls = .transportError ∨ e.cls = .responseAuthenticationFailed
  | _ => False

omit [Interp] [Crypto] in
theorem noAuthenticatedResponse_final {e : SendError} (h : Unanswered e) : (noAuthenticatedResponse e).IsFinal := by
  cases e with
  | raised e =>
    cases e with
    | builtin k t =>
      have hcaught : k = .osError ∨ k = .httpException := h
      simp only [noAuthenticatedResponse, if_pos hcaught]
      rfl
    | app e =>
      have hcaught : e.cls = .transportError ∨ e.cls = .responseAuthenticationFailed := h
      simp only [noAuthenticatedResponse, if_pos hcaught]
      rfl
  | authenticatedPeerError e => exact h.elim
  | peerError e => exact h.elim

omit [Interp] [Crypto] in
theorem unanswered_of_fails {x : Result VerifiedResponse} {post : VerifiedResponse → Prop} (h : Spec x post Fails) :
    Spec (x.mapError SendError.raised) post Unanswered := by
  rw [spec_mapError_iff]
  refine h.mono (fun _ h => h) fun e he => ?_
  rw [show e = .app responseFailure from he]
  exact .inr rfl

/-- The exchange of an authenticated task fails in ways the handler takes, unless a redirect does not parse. -/
theorem verifiedAnswer_spec {pending : PendingResponse} (hscheme : replies.scheme ∈ allowedSchemes)
    (hreply : ∀ t, replies.authenticatedTask pending.request ≠ .badLocation t) :
    Spec (verifiedAnswer (replies.server overflows) pending draws).result
      (fun response => PendingResponse.bodyFits response.status response.body = true) Unanswered := by
  have hposted : Spec (postAuthenticated (replies.authenticatedTask pending.request)) (fun _ => True)
      fun e => Unanswered (.raised e) := by
    cases h : replies.authenticatedTask pending.request with
    | delivered status sent => exact trivial
    | osError t => exact .inl rfl
    | httpException t => exact .inr rfl
    | badLocation t => exact absurd h (hreply t)
  have hread : ∀ sent, Spec (readBounded sent) (fun _ => True) fun e => Unanswered (.raised e) := by
    intro sent
    rw [readBounded_eq]
    split
    · exact .inl rfl
    · exact trivial
  have hurl : Spec (requireHttpUrl replies.scheme) (fun _ => True) fun e => Unanswered (.raised e) := by
    rw [requireHttpUrl_ok_iff (u := ()).mpr hscheme]
    exact trivial
  simp only [verifiedAnswer, Traced.bind_result, Run.of_result, Run.exchange_result, Replies.server_scheme,
    Replies.server_authenticatedTask]
  refine (spec_mapError_iff.mpr hurl).bind fun _ _ => (spec_mapError_iff.mpr hposted).bind fun answer _ =>
    (spec_mapError_iff.mpr (hread answer.2)).bind fun raw _ => ?_
  exact unanswered_of_fails (pending.verify_spec _)

theorem sendAuthenticated_final {peer : VerifiedPeer} {message : JsonDict} {pending : PendingResponse}
    (hscheme : replies.scheme ∈ allowedSchemes)
    (hp : PendingResponse.create peer message defaultTimeout draws.responseKey draws.session draws.started = .ok pending)
    (hreply : ∀ t, replies.authenticatedTask pending.request ≠ .badLocation t) :
    Spec (sendAuthenticated (replies.server overflows) peer message draws).result (fun _ => True) SendError.IsFinal := by
  have hanswer : Spec ((verifiedAnswer (replies.server overflows) pending draws).result.mapError noAuthenticatedResponse)
      (fun response => PendingResponse.bodyFits response.status response.body = true) SendError.IsFinal :=
    spec_mapError_iff.mpr ((verifiedAnswer_spec hscheme hreply).mono (fun _ h => h) fun _ =>
      noAuthenticatedResponse_final)
  simp only [sendAuthenticated, Traced.bind_result, Run.of_result, Traced.mapError_result, hp, raised_ok, ok_bind]
  refine hanswer.bind fun response hfits => ?_
  split
  · rename_i hstatus
    obtain ⟨denial, hdenial⟩ := denial_of_fits hstatus hfits
    rw [Traced.bind_result, Run.of_result, hdenial]
    exact trivial
  · exact trivial

/-- A redirect that does not parse is not caught. -/
theorem sendAuthenticated_badLocation {peer : VerifiedPeer} {message : JsonDict} {pending : PendingResponse} {t : Str}
    (hscheme : replies.scheme ∈ allowedSchemes)
    (hp : PendingResponse.create peer message defaultTimeout draws.responseKey draws.session draws.started = .ok pending)
    (hreply : replies.authenticatedTask pending.request = .badLocation t) :
    (sendAuthenticated (replies.server overflows) peer message draws).result = .error (.raised (.builtin .valueError t)) := by
  have hurl : requireHttpUrl replies.scheme = .ok () := requireHttpUrl_ok_iff.mpr hscheme
  simp only [sendAuthenticated, Traced.bind_result, Run.of_result, Traced.mapError_result, hp, verifiedAnswer,
    Run.exchange_result, Replies.server_scheme, Replies.server_authenticatedTask, hurl, hreply, raised_ok,
    ok_bind, postAuthenticated]
  rfl

theorem raisesCA2A_sendAuthenticated_iff {peer : VerifiedPeer} {message : JsonDict} (hv : args.Valid draws)
    (hscheme : replies.scheme ∈ allowedSchemes) :
    RaisesCA2A (sendAuthenticated (replies.server overflows) peer message draws) ↔
      ∀ pending, PendingResponse.create peer message defaultTimeout draws.responseKey draws.session draws.started =
        .ok pending → ∀ t, replies.authenticatedTask pending.request ≠ .badLocation t := by
  constructor
  · intro h pending hp t ht
    exact h.of_error (sendAuthenticated_badLocation hscheme hp ht)
  · intro h
    cases hp : PendingResponse.create peer message defaultTimeout draws.responseKey draws.session draws.started with
    | ok pending => exact (sendAuthenticated_final hscheme hp (h pending hp)).mono (fun _ h => h) fun _ h => h.isCA2A
    | error e =>
      unfold sendAuthenticated
      refine raisesCA2A_bind_iff.mpr ⟨?_, fun pending h => ?_⟩
      · rw [raisesCA2A_of_iff, hp]
        exact ((PendingResponse.create_spec hv peer message).of_error hp).isCA2A
      · rw [Run.of_result, mapError_ok_iff, hp] at h
        cases h

/-! ## The call -/

/-- **When every exception of a call is a `CA2AError`.** -/
theorem raisesCA2A_sendTask_iff (hv : args.Valid draws) :
    RaisesCA2A (sendTask (replies.server overflows) args draws) ↔ Conforms replies overflows args draws := by
  have hscheme : ∀ {hello}, Greeted replies overflows args draws hello → replies.scheme ∈ allowedSchemes := by
    intro hello h
    obtain ⟨_, _, hoffered, _⟩ := h.accepted
    exact hoffered.1
  unfold sendTask
  simp only [raisesCA2A_bind_iff, raisesCA2A_of_iff, raisesCA2A_handshake_iff, handshake_ok_iff_greeted, Run.of_result,
    mapError_ok_iff, contained_buildRequest_iff hv]
  constructor
  · intro h
    obtain ⟨⟨hgreets, happraisal⟩, hrest⟩ := h
    refine ⟨hgreets, happraisal, fun hello challenge hello_ok => (hrest hello hello_ok).1 challenge,
      fun hello request hello_ok hrequest hmode => ?_, fun hello request pending hello_ok hrequest hmode => ?_⟩
    · have hsent := (hrest hello hello_ok).2 request hrequest
      rw [hmode, if_neg Bool.false_ne_true, raisesCA2A_sendLegacy_iff (hscheme hello_ok)] at hsent
      exact hsent
    · have hsent := (hrest hello hello_ok).2 request hrequest
      rw [hmode, if_pos rfl, raisesCA2A_sendAuthenticated_iff hv (hscheme hello_ok)] at hsent
      exact hsent pending
  · intro h
    refine ⟨⟨h.handshake, h.appraisal⟩, fun hello hello_ok => ⟨fun challenge => h.texts hello challenge hello_ok,
      fun request hrequest => ?_⟩⟩
    cases hmode : args.requireAuthenticatedResponse with
    | false =>
      rw [if_neg Bool.false_ne_true, raisesCA2A_sendLegacy_iff (hscheme hello_ok)]
      exact h.task hello request hello_ok hrequest hmode
    | true =>
      rw [if_pos rfl, raisesCA2A_sendAuthenticated_iff hv (hscheme hello_ok)]
      exact fun pending => h.authenticatedTask hello request pending hello_ok hrequest hmode

/-- **When a call with an authenticated response fails as it should**, once the task is submitted. -/
theorem submitted_final_iff {raw : Bytes}
    (h : .started (.authenticatedTask raw) ∈ (sendTask (replies.server overflows) args draws).trace) :
    (∀ e, (sendTask (replies.server overflows) args draws).result = .error e → e.IsFinal) ↔
      ∀ t, replies.authenticatedTask raw ≠ .badLocation t := by
  obtain ⟨hello, request, hhello, hrequest, hmode, pending, hp, rfl⟩ := sendTask_started (e := .authenticatedTask raw) trivial h
  obtain ⟨_, _, ⟨hscheme, _⟩, _⟩ := (handshake_ok_iff_greeted.mp hhello).accepted
  have hsent : (sendTask (replies.server overflows) args draws).result =
      (sendAuthenticated (replies.server overflows) hello.peer (taskMessage request) draws).result := by
    simp only [sendTask, Traced.bind_result, hhello, ok_bind, Run.of_result, hrequest, raised_ok, hmode, if_true]
  rw [hsent]
  constructor
  · intro hfinal t ht
    exact hfinal _ (sendAuthenticated_badLocation hscheme hp ht)
  · intro hreply e he
    exact (sendAuthenticated_final hscheme hp hreply).of_error he

/-- **The error contract of `send_task`.** A call with valid arguments keeps it exactly when the peer conforms; and a
task submitted for an authenticated response fails with a final error exactly when its redirect, if any, parses. -/
theorem sendTask_errorContract (replies : Replies) (overflows : Str → Bool) (args : TaskArgs) (draws : Draws)
    (hv : args.Valid draws) :
    (KeepsContract (sendTask (replies.server overflows) args draws) ↔ Conforms replies overflows args draws) ∧
      ∀ raw, .started (.authenticatedTask raw) ∈ (sendTask (replies.server overflows) args draws).trace →
        ((∀ e, (sendTask (replies.server overflows) args draws).result = .error e → e.IsFinal) ↔
          ∀ t, replies.authenticatedTask raw ≠ .badLocation t) := by
  refine ⟨⟨fun h => ?_, fun h => ⟨fun e he => ?_, fun raw hraw => ?_⟩⟩, fun raw hraw => submitted_final_iff hraw⟩
  · refine (raisesCA2A_sendTask_iff hv).mp ?_
    unfold RaisesCA2A
    cases hresult : (sendTask (replies.server overflows) args draws).result with
    | ok body => exact trivial
    | error e => exact h.raises e hresult
  · exact ((raisesCA2A_sendTask_iff hv).mpr h).of_error he
  · rw [submitted_final_iff hraw]
    obtain ⟨hello, request, hhello, hrequest, hmode, pending, hp, rfl⟩ :=
      sendTask_started (e := .authenticatedTask raw) trivial hraw
    exact h.authenticatedTask hello request pending (handshake_ok_iff_greeted.mp hhello) hrequest hmode hp

end

/-! ## Peers that break it -/

/-- The draws of a call, on a clock that can be read. -/
def liveDraws : @Draws Crypto.agreed :=
  let _ := Crypto.agreed
  { toyDraws with started := .ok (.finite 0) }

/-- `readArgs`, with an authenticated response required or not. -/
def readArgsWith (authenticated : Bool) : @TaskArgs Crypto.agreed :=
  let _ := Crypto.agreed
  { readArgs with requireAuthenticatedResponse := authenticated }

theorem readArgs_valid (authenticated : Bool) :
    @TaskArgs.Valid Crypto.agreed (readArgsWith authenticated) liveDraws := by
  let _ := Crypto.agreed
  exact
    { leaf := ⟨wireGrant, rfl, by cases authenticated <;> decide, clean_lit _⟩
      capability := clean_lit _
      recordId := clean_lit _
      parent := by simp [readArgsWith, readArgs]
      clock := ⟨.finite 0, rfl, rfl⟩ }

/-- A peer without hardware, with one reply to every task. -/
def softwareReplies [Interp] (task : Reply) : Replies where
  scheme := lit "http"
  channel nonce :=
    match sendJson (serializeChannelOffer
      { channelPublicKey := hex (List.replicate 32 5)
        report :=
          { platform := softwareOnly
            measurement := softwareMeasurement
            publicKey := hex (List.replicate 32 5)
            nonce } }
      (some (lit "c"))) with
    | .ok data => .delivered 200 data
    | .error _ => .osError []
  task _ := task
  authenticatedTask _ := task

/-- A call to read at such a peer. -/
def readTask (authenticated : Bool) (task : Reply) : Run (Dict Json) :=
  let _ := Interp.ascii
  let _ := Crypto.agreed
  sendTask ((softwareReplies task).server fun _ => false) (readArgsWith authenticated) liveDraws

/-- A task was submitted, and what was raised is not one of the runtime's own errors. -/
def escapes (run : Run (Dict Json)) : Bool :=
  run.trace.any startsTask && match run.result with
    | .error (.raised (.builtin _ _)) => true
    | _ => false

theorem not_keepsContract_of_escapes {run : Run (Dict Json)} (h : escapes run = true) : ¬ KeepsContract run := by
  intro hkeeps
  obtain ⟨_, hraised⟩ := Bool.and_eq_true_iff.mp h
  split at hraised
  · rename_i hresult
    exact hkeeps.raises _ hresult
  · cases hraised

/-- A denial by a list. -/
def listDenial : Reply := .delivered 500 (asciiBytes "[]")

/-- An answer by an empty object. -/
def emptyAnswer : Reply := .delivered 200 (asciiBytes "\x7b\x7d")

theorem listDenial_escapes : escapes (readTask false listDenial) = true := by decide +kernel

/-- **The contract is broken**: by a list for a denial on the legacy endpoint, and by a redirect of an authenticated task
that does not parse. -/
theorem readTask_breaks_contract :
    (@TaskArgs.Valid Crypto.agreed (readArgsWith false) liveDraws ∧ ¬ KeepsContract (readTask false listDenial)) ∧
    @TaskArgs.Valid Crypto.agreed (readArgsWith true) liveDraws ∧ ¬ KeepsContract (readTask true (.badLocation [])) :=
  ⟨⟨readArgs_valid false, not_keepsContract_of_escapes listDenial_escapes⟩, readArgs_valid true,
    not_keepsContract_of_escapes (by decide +kernel)⟩

/-- A peer that answers with an object conforms, one that denies with a list does not. -/
theorem errorContract_readTask :
    @Conforms Interp.ascii Crypto.agreed (@softwareReplies Interp.ascii emptyAnswer) (fun _ => false) (readArgsWith false)
      liveDraws ∧
    ¬ @Conforms Interp.ascii Crypto.agreed (@softwareReplies Interp.ascii listDenial) (fun _ => false) (readArgsWith false)
      liveDraws := by
  let _ := Interp.ascii
  let _ := Crypto.agreed
  have hcontract := fun task => (sendTask_errorContract (softwareReplies task) (fun _ => false) (readArgsWith false)
    liveDraws (readArgs_valid false)).1
  have hok : (readTask false emptyAnswer).result.isOk = true := by decide +kernel
  obtain ⟨body, hbody⟩ := exists_of_isOk hok
  constructor
  · exact (hcontract emptyAnswer).mp (keepsContract_of_ok hbody)
  · intro hconforms
    exact not_keepsContract_of_escapes listDenial_escapes ((hcontract listDenial).mpr hconforms)

end Ca2a
