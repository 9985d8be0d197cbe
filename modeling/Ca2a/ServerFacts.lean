/-
What the reference server's handler of a POST does: it sends one JSON
response and raises nothing, unless the declared length has more digits
than `int` converts; and it reads a body only within its bound. The node
is assumed to answer with a result that can be serialized or to raise a
`CA2AError`; with holder proofs required, whatever a node of the source
accepts can be serialized (`accepted_call_answered`).
-/
import Ca2a.EnvelopeCodec
import Ca2a.NodeErrors
import Ca2a.ResponseDelivery
import Ca2a.Server
import Ca2a.Verify

namespace Ca2a

open Py

/-! ## One response -/

/-- The handler reads there, a length of which `P` holds. -/
def IsRead (P : Nat → Prop) (e : Event Act) : Prop := ∃ n, P n ∧ (e = .started (.read n) ∨ e = .returned (.read n))

section
variable [Interp] {P : Nat → Prop}

/-- The handler answered: it raised nothing, and after its reads, of lengths of which `P` holds, it sent one JSON response. -/
structure Answered (P : Nat → Prop) (run : Serving Unit) : Prop where
  returned : run.result = .ok ()
  sent : ∃ reads status body data, (∀ e ∈ reads, IsRead P e) ∧ sendJson body = .ok data ∧
    run.trace = reads ++ [.started (.send status data), .returned (.send status data)]

theorem sendJson_of_noFloat {body : Dict Json} (h : (Json.obj body).NoFloat) : ∃ data, sendJson body = .ok data := by
  obtain ⟨data, hdata, _⟩ := utf8?_dumps_length h
  exact ⟨data, utf8_ok_iff.mpr hdata⟩

theorem sendResponse_eq {body : Dict Json} {data : Bytes} (h : sendJson body = .ok data) (status : Int) :
    sendResponse status body = ⟨[.started (.send status data), .returned (.send status data)], .ok ()⟩ := by
  rw [sendResponse, h]
  rfl

/-- A body without floats is sent. -/
theorem answered_sendResponse {body : Dict Json} (h : (Json.obj body).NoFloat) (status : Int) :
    Answered P (sendResponse status body) := by
  obtain ⟨data, hdata⟩ := sendJson_of_noFloat h
  rw [sendResponse_eq hdata]
  exact ⟨rfl, [], status, body, data, by simp, hdata, rfl⟩

/-- Reading first and answering afterwards is answering. -/
theorem Answered.after {trace : List (Event Act)} (ht : ∀ e ∈ trace, IsRead P e) {run : Serving Unit} (h : Answered P run) :
    Answered P ⟨trace ++ run.trace, run.result⟩ := by
  obtain ⟨hreturned, reads, status, body, data, hreads, hdata, htrace⟩ := h
  refine ⟨hreturned, trace ++ reads, status, body, data, fun e he => ?_, hdata, by rw [htrace, List.append_assoc]⟩
  rcases List.mem_append.mp he with he | he
  · exact ht e he
  · exact hreads e he

/-- A `try` that only reads is answered when what comes after it is, and so is every error. -/
theorem answered_tryElse {α : Type} {x : Serving α} {handler : ServeError → Option (Serving Unit)}
    {next : α → Serving Unit} (hx : ∀ e ∈ x.trace, IsRead P e) (hok : ∀ a, x.result = .ok a → Answered P (next a))
    (herror : ∀ e, x.result = .error e → ∃ y, handler e = some y ∧ Answered P y) : Answered P (x.tryElse handler next) := by
  cases h : x.result with
  | ok a =>
    rw [Traced.tryElse_of_ok h]
    exact (hok a h).after hx
  | error e =>
    obtain ⟨y, hy, hanswered⟩ := herror e h
    rw [Traced.tryElse_of_error h hy]
    exact hanswered.after hx

theorem answered_errorBody (status : Int) (code message : String) : Answered P (sendResponse status (errorBody code message)) :=
  answered_sendResponse (by simp [errorBody]) status

omit [Interp] in
theorem noFloat_serializeError (exc : CA2AError) : (Json.obj (serializeError exc).items).NoFloat := by
  simp [serializeError]

/-- Every error of the runtime is answered. -/
theorem answerError_of_isCA2A {e : Exc} (h : e.isCA2A) : ∃ y, answerError (.raised e) = some y ∧ Answered P y := by
  cases e with
  | builtin k t => exact h.elim
  | app exc => exact ⟨_, rfl, answered_sendResponse (noFloat_serializeError exc) _⟩

omit [Interp] in
/-- The errors `do_POST` answers as invalid JSON. -/
def Refused (e : ServeError) : Prop := ∀ k t, e = .raised (.builtin k t) → k.isValueError = true

theorem refuseBody_refusal {e : ServeError} (h : Refused e) :
    ∃ y, refuseBody e = some y ∧ Answered P y := by
  have hrefusal : Answered P refuseBody.refusal := answered_errorBody _ _ _
  cases e with
  | raised e =>
    cases e with
    | builtin k t => exact ⟨_, by rw [refuseBody, if_pos (h k t rfl)], hrefusal⟩
    | app exc => exact ⟨_, rfl, hrefusal⟩
  | recursionError => exact ⟨_, rfl, hrefusal⟩
  | timeoutError => exact ⟨_, rfl, hrefusal⟩

/-! ## What is assumed -/

variable [Crypto]

/-- The node answers with a result that can be serialized, or raises one of the runtime's errors. -/
def Served.Conforms (node : Served) : Prop :=
  ∀ message, Spec (node.handle message) (fun result => ∃ body, serializePeerResult result = .ok body) Exc.isCA2A

omit [Interp] [Crypto] in
/-- `json.loads` raises `ValueError` or `RecursionError`. -/
def LoadsRaises (jsonLoads : Bytes → Except ServeError Json) : Prop :=
  ∀ raw, Spec (jsonLoads raw) (fun _ => True) fun e =>
    e = .recursionError ∨ ∃ k t, e = .raised (.builtin k t) ∧ k.isValueError = true

theorem noFloat_serializePeerResult {result : PeerResult} {body : JsonDict} (h : serializePeerResult result = .ok body) :
    (Json.obj body.items).NoFloat := by
  simp only [serializePeerResult, recordToDict, bind_ok_iff, Except.ok.injEq] at h
  obtain ⟨_, ⟨hash, hhash, rfl⟩, rfl⟩ := h
  have hitems : ∀ kv ∈ recordItems result.record, kv.2.NoFloat := by
    rw [DelegationRecord.recordHash, bind_ok_iff] at hhash
    obtain ⟨msg, hmsg, _⟩ := hhash
    exact Json.noFloat_obj.mp (canonicalize_ok_iff.mp hmsg).1.noFloat
  have hrecord : (Json.obj (Dict.set (recordItems result.record) (lit "record_hash") (.str hash))).NoFloat := by
    refine Json.noFloat_obj.mpr fun kv hkv => ?_
    rcases Dict.mem_set hkv with hkv | hkv
    · exact hitems kv hkv
    · rw [hkv]
      trivial
  rw [Json.noFloat_obj] at hrecord ⊢
  simpa using hrecord

/-! ## The body -/

omit [Interp] [Crypto] in
theorem Post.read_spec (post : Post) (length : Nat) :
    Spec (post.read length) (fun _ => True) fun e => e = .timeoutError := by
  unfold Post.read
  split
  · exact trivial
  · split
    · exact trivial
    · rfl

omit [Crypto] in
theorem decodeDict_spec (raw : Bytes) : Spec (decodeDict raw) (fun _ => True) Fails := by
  unfold decodeDict
  split
  · exact trivial
  · rename_i e h
    exact (decode_spec raw).of_error h

omit [Crypto] in
/-- Whatever the body is read as, the handler answers, when what follows does. -/
theorem answered_parse {α : Type} {length : Nat} (hlength : P length) (post : Post) {f : Bytes → Except ServeError α}
    (hf : ∀ raw, Spec (f raw) (fun _ => True) Refused) {next : α → Serving Unit} (hnext : ∀ a, Answered P (next a)) :
    Answered P (Traced.tryElse
      (do
        let raw ← .step (.read length) (post.read length)
        .lift (f raw))
      refuseBody next) := by
  refine answered_tryElse (fun e he => ?_) (fun a _ => hnext a) fun e he => refuseBody_refusal ?_
  · rw [Traced.mem_trace_bind] at he
    rcases he with he | ⟨_, _, he⟩
    · exact ⟨length, hlength, Traced.mem_step_trace he⟩
    · cases he
  · have hread : Spec (post.read length) (fun _ => True) Refused :=
      (post.read_spec length).mono (fun _ h => h) fun e he => by simp [he, Refused]
    have hparsed : Spec (post.read length >>= f) (fun _ => True) Refused := hread.bind fun raw _ => hf raw
    rw [Traced.bind_result, Traced.step_result] at he
    exact hparsed.of_error he

namespace Served
variable {node : Served}

theorem answer_spec (hnode : node.Conforms) (message : Dict Json) :
    Spec (node.answer message) (fun _ => True) fun _ => False := by
  unfold answer
  split
  · exact trivial
  · exact trivial
  · rename_i e hne h
    have hspec : Spec (do
        let result ← node.handle message
        serializePeerResult result) (fun _ => True) Exc.isCA2A :=
      (hnode message).bind fun result hresult => by
        obtain ⟨body, hbody⟩ := hresult
        rw [hbody]
        trivial
    have he := hspec.of_error h
    cases e with
    | builtin k t => exact he.elim
    | app exc => exact hne exc rfl

/-- `handle_authenticated` gives what has been encoded, or raises one of the runtime's errors. -/
theorem handleAuthenticated_spec (hnode : node.Conforms) (envelope : JsonDict) :
    Spec (node.handleAuthenticated envelope) (fun p => (Json.obj p.2).NoFloat) Exc.isCA2A := by
  refine ((ResponseProducer.create_spec _ envelope).mono (fun _ h => h) fun _ => Fails.isCA2A).bind fun producer hrequest => ?_
  refine ((item_spec hrequest).mono (fun _ h => h) fun _ => Fails.isCA2A).bind fun request _ => ?_
  refine ((answer_spec hnode _).mono (fun _ h => h) fun _ h => h.elim).bind fun p _ => ?_
  exact ((ResponseProducer.finish_spec producer p.1 p.2).mono (fun _ h => h) fun _ => Fails.isCA2A).bind fun result h => h

theorem answered_answerAuthenticated (hnode : node.Conforms) (envelope : JsonDict) :
    Answered P (node.answerAuthenticated envelope) := by
  unfold answerAuthenticated
  cases h : node.handleAuthenticated envelope with
  | ok p =>
    have hanswered : Answered P (sendResponse p.1 p.2) :=
      answered_sendResponse ((handleAuthenticated_spec hnode envelope).of_ok h) p.1
    obtain ⟨hreturned, reads, status, body, data, hreads, hdata, htrace⟩ := hanswered
    rw [Traced.tryElse_of_ok (by rw [← hreturned]; rfl)]
    refine ⟨rfl, reads, status, body, data, hreads, hdata, ?_⟩
    rw [← htrace]
    exact List.append_nil _
  | error e =>
    obtain ⟨y, hy, hanswered⟩ := answerError_of_isCA2A ((handleAuthenticated_spec hnode envelope).of_error h)
    rw [Traced.tryElse_of_error rfl hy]
    exact hanswered

/-- What the node accepts is sent, and what it refuses is answered with the error. -/
theorem answered_answerTask {message : Dict Json} (hnode : Spec (node.handle message)
    (fun result => ∃ body, serializePeerResult result = .ok body) Exc.isCA2A) : Answered P (node.answerTask message) := by
  unfold answerTask
  cases h : node.handle message with
  | ok result =>
    obtain ⟨body, hbody⟩ := hnode.of_ok h
    refine answered_tryElse (by simp) (fun result' h' => ?_) fun e h' => by cases h'
    obtain rfl : result = result' := Except.ok.inj h'
    rw [hbody]
    exact answered_sendResponse (noFloat_serializePeerResult hbody) 200
  | error e =>
    refine answered_tryElse (by simp) (fun result h' => by cases h') fun e' h' => ?_
    obtain rfl : ServeError.raised e = e' := Except.error.inj h'
    exact answerError_of_isCA2A (hnode.of_error h)

/-- The body is read, and answered whatever it holds. -/
theorem answered_answerBody (hnode : node.Conforms) {jsonLoads : Bytes → Except ServeError Json} (hloads : LoadsRaises jsonLoads)
    (post : Post) {length : Nat} (hlength : P length) : Answered P (node.answerBody jsonLoads post length) := by
  unfold answerBody
  split
  · refine answered_parse hlength post (fun raw => ?_) fun envelope => answered_answerAuthenticated hnode envelope
    cases h : decodeDict raw with
    | ok envelope => exact trivial
    | error e =>
      obtain rfl := (decodeDict_spec raw).of_error h
      simp [Except.mapError, Refused]
  · refine answered_parse hlength post (fun raw => (hloads raw).mono (fun _ h => h) fun e he k t hbuiltin => ?_) fun message => ?_
    · rcases he with rfl | ⟨k', t', rfl, hk⟩
      · cases hbuiltin
      · cases hbuiltin
        exact hk
    · split
      · exact answered_answerTask (hnode _)
      · exact answered_errorBody _ _ _

end Served

/-! ## The declared length -/

omit [Crypto] in
theorem isDecimal_of_ascii {s : Str} : isAscii s = true ∧ isDecimal s = true ↔ s ≠ [] ∧ ∀ c ∈ s, isDigit c = true := by
  simp only [isAscii, isDecimal, List.all_eq_true, decide_eq_true_eq, Bool.and_eq_true, Bool.not_eq_true',
    List.isEmpty_eq_false_iff]
  constructor
  · intro h
    obtain ⟨hascii, hne, hdecimal⟩ := h
    refine ⟨hne, fun c hc => ?_⟩
    have hd := hdecimal c hc
    rwa [if_pos (hascii c hc)] at hd
  · intro h
    obtain ⟨hne, hdigits⟩ := h
    have hascii : ∀ c ∈ s, c.val < 128 := fun c hc => isDigit_val_lt (hdigits c hc)
    refine ⟨hascii, hne, fun c hc => ?_⟩
    rw [if_pos (hascii c hc)]
    exact hdigits c hc

/-- A length the handler may read: the declared one, within its bound. -/
def Post.Declares (post : Post) (length : Nat) : Prop :=
  int? (post.contentLength.getD []) = some length ∧ 1 ≤ length ∧ length ≤ maxBody

omit [Interp] [Crypto] in
/-- A task with a declared length of more ASCII digits than `int` converts. -/
def Post.Overlong (post : Post) : Prop :=
  (post.path = taskPath ∨ post.path = authenticatedTaskPath) ∧ ∃ digits, post.contentLength = some digits ∧
    (∀ c ∈ digits, isDigit c = true) ∧ maxStrDigits < digits.length

namespace Served
variable {node : Served} {jsonLoads : Bytes → Except ServeError Json} {post : Post}

/-- Too long a length: `int` raises, and nothing catches it. -/
theorem doPost_of_overlong (node : Served) (jsonLoads : Bytes → Except ServeError Json) (h : post.Overlong) :
    ∃ t, node.doPost jsonLoads post = ⟨[], .error (.raised (.builtin .valueError t))⟩ := by
  obtain ⟨hpath, digits, hlength, hdigits, hlong⟩ := h
  have hne : digits ≠ [] := by
    rintro rfl
    simp [maxStrDigits] at hlong
  have hint : int? digits = none := by rw [int?_digits hne hdigits, if_neg (by omega)]
  refine ⟨Interp.errorText "int" digits, ?_⟩
  rw [doPost, if_neg (by tauto)]
  simp only [hlength, Option.getD_some]
  rw [if_neg (not_not.mpr (isDecimal_of_ascii.mpr ⟨hne, hdigits⟩)), intOf, hint]
  rfl

theorem answered_doPost (hnode : node.Conforms) (hloads : LoadsRaises jsonLoads) (h : ¬ post.Overlong) :
    Answered post.Declares (node.doPost jsonLoads post) := by
  unfold doPost
  by_cases hpath : post.path = taskPath ∨ post.path = authenticatedTaskPath
  · rw [if_neg (by tauto)]
    dsimp only
    by_cases hdecimal : isAscii (post.contentLength.getD []) = true ∧ isDecimal (post.contentLength.getD []) = true
    · rw [if_neg (not_not.mpr hdecimal)]
      obtain ⟨hne, hdigits⟩ := isDecimal_of_ascii.mp hdecimal
      have hshort : (post.contentLength.getD []).length ≤ maxStrDigits := by
        by_contra hlong
        refine h ⟨hpath, post.contentLength.getD [], ?_, hdigits, by omega⟩
        cases hlength : post.contentLength with
        | none => simp [hlength] at hne
        | some digits => rfl
      have hint := int?_digits hne hdigits
      rw [if_pos hshort] at hint
      rw [intOf, hint]
      change Answered _ (if _ then _ else _)
      split
      · exact answered_errorBody _ _ _
      · rename_i hbound
        have hnat : (digitsVal (post.contentLength.getD []) : Int).toNat = digitsVal (post.contentLength.getD []) :=
          Int.toNat_natCast _
        rw [hnat]
        exact answered_answerBody hnode hloads post ⟨hint, by omega, by omega⟩
    · rw [if_pos hdecimal]
      exact answered_errorBody _ _ _
  · rw [if_pos (not_or.mp hpath)]
    exact answered_errorBody _ _ _

/-- **Every POST is answered**, unless the declared length is one `int` does not convert; and a body is read only within its
bound. -/
theorem doPost_answers_iff (node : Served) (hnode : node.Conforms) (jsonLoads : Bytes → Except ServeError Json)
    (hloads : LoadsRaises jsonLoads) (post : Post) :
    (Answered post.Declares (node.doPost jsonLoads post) ↔ ¬ post.Overlong) ∧
      ∀ n, .started (.read n) ∈ (node.doPost jsonLoads post).trace → post.Declares n := by
  by_cases hlong : post.Overlong
  · obtain ⟨t, hrun⟩ := doPost_of_overlong node jsonLoads hlong
    rw [hrun]
    refine ⟨iff_of_false (fun h => ?_) (not_not.mpr hlong), fun n hn => ?_⟩
    · cases h.returned
    · cases hn
  · have hanswered := answered_doPost hnode hloads hlong
    refine ⟨iff_of_true hanswered hlong, fun n hn => ?_⟩
    obtain ⟨reads, status, body, data, hreads, _, htrace⟩ := hanswered.sent
    rw [htrace] at hn
    rcases List.mem_append.mp hn with hn | hn
    · obtain ⟨m, hm, heq⟩ := hreads _ hn
      have hnm : n = m := by simpa using heq
      exact hnm ▸ hm
    · simp at hn

end Served

end

/-! ### A length of 4301 digits -/

/-- A node to which no message carries the extension. -/
def refusingNode : @Served Crypto.toy :=
  let _ := Crypto.toy
  { privateKey := (3 : UInt8)
    handle := fun _ => raise .transportError (lit "message carries no cA2A extension metadata") }

theorem refusingNode_conforms : @Served.Conforms Interp.ascii Crypto.toy refusingNode := fun _ => trivial

/-- `json.loads` of UTF-8 octets. -/
def plainLoads [Interp] (raw : Bytes) : Except ServeError Json := (loadsUtf8 dictHook raw).mapError .raised

theorem plainLoads_raises : LoadsRaises (@plainLoads Interp.ascii) := by
  let _ := Interp.ascii
  intro raw
  have hloads : Spec (loadsUtf8 (ε := CA2AError) dictHook raw) (fun _ => True) fun e =>
      ∃ k t, e = .builtin k t ∧ k.isValueError = true :=
    (ScanInvariant.dictHook fun k t hk => ⟨k, t, rfl, hk⟩).loadsUtf8 raw
  unfold plainLoads
  cases h : loadsUtf8 dictHook raw with
  | ok j => exact trivial
  | error e =>
    obtain ⟨k, t, rfl, hk⟩ := hloads.of_error h
    exact .inr ⟨k, t, rfl, hk⟩

/-- An empty object. -/
def shortPost : Post where
  path := taskPath
  contentLength := some (lit "2")
  body := asciiBytes "\x7b\x7d"
  ends := true

theorem doPost_answers_shortPost :
    let _ := Interp.ascii
    let _ := Crypto.toy
    Answered shortPost.Declares (refusingNode.doPost plainLoads shortPost) := by
  intro _ _
  refine (Served.doPost_answers_iff refusingNode refusingNode_conforms plainLoads plainLoads_raises shortPost).1.mpr fun h => ?_
  obtain ⟨_, digits, hdigits, _, hlong⟩ := h
  obtain rfl : lit "2" = digits := Option.some.inj hdigits
  exact absurd hlong (by decide)

/-- A length of one digit more than `int` converts. -/
def longPost : Post where
  path := taskPath
  contentLength := some (List.replicate (maxStrDigits + 1) (cp '1'))
  body := []
  ends := true

/-- No answer is sent: the exception of `int` leaves `do_POST`. -/
theorem doPost_longPost :
    let _ := Interp.ascii
    let _ := Crypto.toy
    refusingNode.Conforms ∧ LoadsRaises plainLoads ∧ ¬ Answered longPost.Declares (refusingNode.doPost plainLoads longPost) ∧
      ∃ t, refusingNode.doPost plainLoads longPost = ⟨[], .error (.raised (.builtin .valueError t))⟩ := by
  intro _ _
  have hlong : longPost.Overlong := by
    refine ⟨.inl rfl, _, rfl, fun c hc => ?_, ?_⟩
    · rw [List.eq_of_mem_replicate hc]
      decide
    · rw [List.length_replicate]
      omega
  obtain ⟨t, hrun⟩ := Served.doPost_of_overlong refusingNode plainLoads hlong
  refine ⟨refusingNode_conforms, plainLoads_raises, fun h => ?_, t, hrun⟩
  rw [hrun] at h
  cases h.returned

section
variable [Interp] [Crypto]

/-! ## Accepted calls -/

/-- What a signed proof covers can be encoded, and the record of the call has nothing else of the request's. -/
theorem PeerGuarantee.exists_recordHash {request : PeerRequest} {config : PeerConfig} {clock : Readings}
    {leaf : DelegationCredential} {res : PeerResult} (h : PeerGuarantee request config clock leaf res)
    (hproof : config.requireHolderProof = true) : ∃ hash, res.record.recordHash = .ok hash := by
  obtain ⟨proof, audience, secret, _, _, _, hverified⟩ := h.holder hproof
  have hbody := (verifyHolderProof_ok_iff.mp hverified).2.canonical
  obtain ⟨_, _, _, _, _, hrecord, _, hparent⟩ := canonical_proofBody_iff.mp hbody
  have hleaf := (h.chain_accepted.signed leaf (List.mem_of_getLast? h.leaf_eq)).canonical
  rw [h.record]
  obtain ⟨hash, hhash, _⟩ := DelegationRecord.exists_recordHash (canonical_recordFor hleaf hrecord hparent res.callerAttestation)
  exact ⟨hash, hhash⟩

theorem serializePeerResult_of_recordHash {result : PeerResult} {hash : Str} (h : result.record.recordHash = .ok hash) :
    ∃ body, serializePeerResult result = .ok body := by
  rw [serializePeerResult, recordToDict, h]
  exact ⟨_, rfl⟩

/-- What a node that requires holder proofs accepts can be serialized. -/
theorem PeerNode.exists_recordHash {node : PeerNode} (hproof : node.requireHolderProof = true) {message : Dict Json}
    {clock : Readings} {result : PeerResult} (h : node.handle message clock = .ok result) :
    ∃ hash, result.record.recordHash = .ok hash := by
  obtain ⟨request, _, h⟩ := handle_ok_iff.mp h
  obtain ⟨revocations, _, h⟩ := serve_ok_iff.mp h
  obtain ⟨leaf, haccepted⟩ := handlePeerRequest_ok_iff.mp h
  exact haccepted.guarantee.exists_recordHash hproof

/-- **Every accepted call can be answered.** With holder proofs required, the record of an accepted call is hashed and the
success path of `do_POST` sends the result; and a chain document is verified or refused with an error of the runtime. -/
theorem accepted_call_answered :
    (∀ (node : PeerNode) (message : Dict Json) (clock : Readings) (result : PeerResult), node.requireHolderProof = true →
      node.handle message clock = .ok result →
      (∃ hash, result.record.recordHash = .ok hash) ∧
      ∃ body data, serializePeerResult result = .ok body ∧ sendJson body.items = .ok data ∧
        (node.served clock).answerTask message = ⟨[.started (.send 200 data), .returned (.send 200 data)], .ok ()⟩) ∧
    ∀ (doc : Json) (trusted : Finset Str) (maxDepth : Int) (atTime : Option Int) (clock : Int)
      (revocations : Option RevocationSnapshot) (staleness : Option Int), (∀ t ∈ atTime, 0 ≤ t) → (∀ s ∈ staleness, 0 ≤ s) →
      Contained (do
        let chain ← parseChain doc
        verifyDelegationChain chain trusted maxDepth atTime clock revocations staleness) := by
  constructor
  · intro node message clock result hproof hhandle
    obtain ⟨hash, hhash⟩ := PeerNode.exists_recordHash hproof hhandle
    obtain ⟨body, hbody⟩ := serializePeerResult_of_recordHash hhash
    obtain ⟨data, hdata⟩ := sendJson_of_noFloat (noFloat_serializePeerResult hbody)
    refine ⟨⟨hash, hhash⟩, body, data, hbody, hdata, ?_⟩
    have haccepted : (Traced.lift (σ := Act) (((node.served clock).handle message).mapError ServeError.raised)).result =
        .ok result := by
      rw [Traced.lift_result, mapError_ok_iff]
      exact hhandle
    rw [Served.answerTask, Traced.tryElse_of_ok haccepted, hbody]
    exact sendResponse_eq hdata 200
  · intro doc trusted maxDepth atTime clock revocations staleness ht hs
    exact contained_bind_iff.mpr ⟨contained_parseChain doc, fun chain _ =>
      contained_verifyDelegationChain chain trusted maxDepth clock revocations ht hs⟩

end

/-- The message that presents the grant, with a proof by its subject: under `Crypto.wire` a key signs in one way. -/
def provenMessage : Dict Json :=
  grantMessage (.obj [(lit "challenge", .str toyChallenge),
    (lit "signature", .str (hex (List.replicate 32 2 ++ List.replicate 32 0)))])

theorem provenMessage_accepted : (@PeerNode.handle Interp.ascii Crypto.wire wireNode provenMessage toyReadings).isOk = true := by
  decide +kernel

theorem accepted_call_answered_wireGrant :
    let _ := Interp.ascii
    let _ := Crypto.wire
    (∃ result hash body data, wireNode.handle provenMessage toyReadings = .ok result ∧ result.record.recordHash = .ok hash ∧
      serializePeerResult result = .ok body ∧
      (wireNode.served toyReadings).answerTask provenMessage =
        ⟨[.started (.send 200 data), .returned (.send 200 data)], .ok ()⟩) ∧
    Contained (do
      let chain ← parseChain (.arr [.obj (credentialToDict wireGrant), .obj (credentialToDict wireDelegation)])
      verifyDelegationChain chain {readGrant.issuer} 4 (some 100) 200 none (some 60)) := by
  intro _ _
  obtain ⟨result, hresult⟩ := exists_of_isOk provenMessage_accepted
  obtain ⟨⟨hash, hhash⟩, body, data, hbody, _, hanswer⟩ :=
    accepted_call_answered.1 wireNode provenMessage toyReadings result rfl hresult
  refine ⟨⟨result, hash, body, data, hresult, hhash, hbody, hanswer⟩, ?_⟩
  exact accepted_call_answered.2 _ _ _ _ _ _ _ (by decide) (by decide)

end Ca2a
