/-
Both ends of one exchange: a producer for the request of a pending response
has its key (`key_agreement`), the appraised peer can build one
(`producer_of_fresh`), and the caller accepts what it finishes
(`verify_of_decode`).
-/
import Ca2a.Bodies
import Ca2a.ResponseFacts

namespace Ca2a

open Py

/-- Both ends of an agreement get one secret. -/
def Crypto.SymmetricExchange [Crypto] : Prop :=
  ∀ a b shared, Crypto.exchange a (Crypto.xPublic b) = .ok shared → Crypto.exchange b (Crypto.xPublic a) = .ok shared

section
variable [Interp] [Crypto]

variable {pending : PendingResponse} {peer : VerifiedPeer} {message : JsonDict} {ephemeral privateKey : Crypto.XKey}
  {session : Bytes} {envelope : JsonDict} {producer : ResponseProducer}

/-- The envelope of a producer for this request names the peer. -/
theorem peer_of_request (hp : pending.Fresh peer message ephemeral session) {producer : ResponseProducer}
    {privateKey : Crypto.XKey} (hb : producer.Built privateKey pending.request) :
    hex (Crypto.xPublic privateKey) = peer.publicKey := by
  have hc := (encode_ok_iff.mp hp.encoded).2.1
  have hc' := (encode_ok_iff.mp hb.encoded).2.1
  have h := fields_of_canonicalize (PendingResponse.wf_envelope _ _ _ _) (wf_of_decode hb.decoded) hc hc' (lit "peer")
  rw [hb.peer] at h
  simpa [PendingResponse.envelope, Dict.get?_cons, eq_comm] using h

/-- A producer made from the octets of a request is built from that request. -/
theorem built_of_request (hp : pending.Fresh peer message ephemeral session)
    (hd : decode pending.request = .ok envelope.items) (hc : ResponseProducer.create privateKey envelope = .ok producer) :
    producer.Built privateKey pending.request := by
  obtain ⟨request, henc, hb⟩ := ResponseProducer.built_of_create hc
  obtain ⟨d, hd', _, henc'⟩ := decode_encode (PendingResponse.wf_envelope _ _ _ _) hp.encoded
  obtain rfl : envelope.items = d := Except.ok.inj (hd.symm.trans hd')
  obtain rfl : request = pending.request := Except.ok.inj (henc.symm.trans henc')
  exact hb

/-- The two ends derive one key. -/
theorem key_agreement (hx : Crypto.SymmetricExchange) (hp : pending.Fresh peer message ephemeral session)
    (hb : producer.Built privateKey pending.request) :
    producer.key = pending.key := by
  obtain ⟨recipient, hrec, hk⟩ := hb.key
  have hf := fields_of_canonicalize (PendingResponse.wf_envelope _ _ _ _) (wf_of_decode hb.decoded)
    (encode_ok_iff.mp hp.encoded).2.1 (encode_ok_iff.mp hb.encoded).2.1 (lit "recipient")
  have hr : recipient = .str (hex (Crypto.xPublic ephemeral)) := by
    rw [hrec] at hf
    simp only [PendingResponse.envelope, Dict.get?_cons] at hf
    cases recipient <;> simp_all [Json.Same]
  subst hr
  obtain ⟨_, shared, salt, hpub, _, hs, hsalt, hk⟩ := responseKey_ok_iff.mp hk
  obtain ⟨_, shared', salt', hpub', _, hs', hsalt', hk'⟩ := responseKey_ok_iff.mp hp.key
  obtain rfl := hex_injective (Json.str.inj hpub)
  rw [← peer_of_request hp hb] at hpub'
  obtain rfl := hex_injective (Json.str.inj hpub')
  obtain rfl : shared = shared' := Except.ok.inj (hs.symm.trans (hx _ _ _ hs'))
  rw [hb.requestSha256, ← hp.requestSha256, hsalt'] at hsalt
  obtain rfl := Option.some.inj hsalt
  rw [hk, hk']

omit [Interp] in
/-- The envelope in key order. -/
theorem PendingResponse.norm_envelope (peer : VerifiedPeer) (message : JsonDict) (ephemeral : Crypto.XKey)
    (session : Bytes) : (Json.obj (PendingResponse.envelope peer message ephemeral session)).norm =
      .obj [(lit "peer", .str peer.publicKey), (lit "profile", .str responseProfile),
        (lit "recipient", .str (hex (Crypto.xPublic ephemeral))), (lit "request", (Json.obj message.items).norm),
        (lit "session", .str (hex session))] := by
  rfl

/-- A peer can answer the requests it is sent. -/
theorem producer_of_fresh (hx : Crypto.SymmetricExchange) (hp : pending.Fresh peer message ephemeral session)
    (hpub : peer.publicKey = hex (Crypto.xPublic privateKey))
    (heph : (Crypto.xPublic ephemeral).length = 32) (hsession : session.length = 32) :
    ∃ envelope, decode pending.request = .ok envelope.items ∧
      ∃ producer, ResponseProducer.create privateKey envelope = .ok producer := by
  have hw := PendingResponse.wf_envelope peer message ephemeral session
  obtain ⟨d, hd, hn, henc⟩ := decode_encode hw hp.encoded
  rw [PendingResponse.norm_envelope, Json.norm_obj, Json.obj.injEq] at hn
  obtain ⟨_, shared, salt, hpub', _, hs, hsalt, hk⟩ := responseKey_ok_iff.mp hp.key
  rw [hpub] at hpub'
  obtain rfl := hex_injective (Json.str.inj hpub')
  have hkey : responseKey privateKey (.str (hex (Crypto.xPublic ephemeral))) (Crypto.sha256Hex pending.request) =
      .ok pending.key :=
    responseKey_ok_iff.mpr ⟨_, shared, salt, rfl, heph, hx _ _ _ hs, hp.requestSha256 ▸ hsalt, hk⟩
  subst hn
  refine ⟨⟨_, wf_of_decode hd⟩, hd, ?_⟩
  simp only [ResponseProducer.create, bind_ok_iff, ensure_ok_iff, exists_const, item_ok_iff]
  refine ⟨_, _, henc, _, hd, ?_, _, rfl, rfl, _, rfl, ?_, _, rfl, rfl, _, rfl, _, hexField_ok_iff.mpr ⟨rfl, hsession⟩, _, henc,
    _, rfl, _, hkey, rfl⟩
  · exact (by decide : [lit "peer", lit "profile", lit "recipient", lit "request", lit "session"].toFinset = requestFields)
  · simp [Json.str?, hpub]

variable {status : Int} {body : JsonDict} {result : Dict Json}

theorem wf_finish (h : producer.finish status body = .ok result) : (Json.obj result).WF := by
  obtain ⟨_, _, _, rfl, _⟩ := ResponseProducer.finish_ok_iff.mp h
  have hb := Json.wf_obj.mp body.wf
  simpa [ResponseProducer.statement, Dict.keys] using hb

/-- The caller accepts octets that decode to what a producer of its request finished. -/
theorem verify_of_decode (hx : Crypto.SymmetricExchange) (hmac : ∀ key message, (Crypto.hmac key message).length = 32)
    (hp : pending.Fresh peer message ephemeral session) (hb : producer.Built privateKey pending.request)
    (hf : producer.finish status body = .ok result) (hs : PendingResponse.StatusFits status)
    (hbody : PendingResponse.bodyFits status body.items = true) {before after : PyFloat} (hbefore : pending.Within before)
    (hafter : pending.Within after) {data : Bytes} (hd : decode data = .ok result) :
    (pending.verify { status := .int status, raw := data, before := some before, after := some after }).1 =
      .ok { status, body := body.items, requestSha256 := pending.requestSha256, peerAssurance := pending.assurance } := by
  obtain ⟨raw, wire, hraw, rfl, _⟩ := ResponseProducer.finish_ok_iff.mp hf
  rw [PendingResponse.verify_eq, if_neg (by simp [hp.unused])]
  refine PendingResponse.authenticate_ok_iff.mpr
    ⟨_, raw, status, body.items, ⟨before, rfl, hbefore⟩, hd, rfl, hs, ?_, hmac _ _, ?_, hbody, ⟨after, rfl, hafter⟩, rfl⟩
  · simpa [ResponseProducer.statement, Dict.erase] using hraw
  · rw [← key_agreement hx hp hb]
    have hhash : producer.requestSha256 = pending.requestSha256 := hb.requestSha256.trans hp.requestSha256.symm
    constructor <;> simp [ResponseProducer.statement, Dict.get?_cons, Dict.keys, hhash, responseFields]

end

/-! ## An exchange -/

/-- The primitives with another digest, derivation and MAC. -/
@[reducible] def Crypto.variant (sha256 : Bytes → Bytes) (hkdf : Option Bytes → Bytes → Bytes → Bytes)
    (hmac : Bytes → Bytes → Bytes) : Crypto :=
  { Crypto.toy with sha256, hkdf, hmac }

section
variable (sha256 : Bytes → Bytes) (hkdf : Option Bytes → Bytes → Bytes → Bytes) (hmac : Bytes → Bytes → Bytes)

theorem Crypto.variant_symmetricExchange : @Crypto.SymmetricExchange (Crypto.variant sha256 hkdf hmac) := by
  intro (a : UInt8) (b : UInt8) shared h
  rw [← h]
  change Except.ok ((List.replicate 32 a).map (· + b)) = Except.ok ((List.replicate 32 b).map (· + a))
  rw [List.map_replicate, List.map_replicate, add_comm]

def calleePeer : VerifiedPeer where
  publicKey := hex (List.replicate 32 5)
  assurance := .none
  measurement := []

def emptyMessage : JsonDict := ⟨[], by simp [Dict.keys]⟩

theorem emptyMessage_encodes :
    (@encode Interp.ascii (@PendingResponse.envelope Crypto.toy calleePeer emptyMessage (3 : UInt8) (List.replicate 32 7))).isOk =
      true := by
  decide +kernel

/-- An exchange with the callee, with any digest, derivation and MAC. -/
theorem exists_exchange :
    let _ := Interp.ascii
    let _ := Crypto.variant sha256 hkdf hmac
    ∃ pending envelope producer,
      PendingResponse.create calleePeer emptyMessage (.finite 30) (3 : UInt8) (List.replicate 32 7) (.ok (.finite 0)) =
        .ok pending ∧
      pending.Within (.finite 1) ∧ decode pending.request = .ok envelope.items ∧
      ResponseProducer.create (5 : UInt8) envelope = .ok producer := by
  intro _ _
  obtain ⟨request, hrequest⟩ : ∃ request, encode (PendingResponse.envelope calleePeer emptyMessage (3 : UInt8)
      (List.replicate 32 7)) = .ok request := by
    exact exists_of_isOk emptyMessage_encodes
  have hkey : responseKey (3 : UInt8) (.str calleePeer.publicKey) (Crypto.sha256Hex request) = .ok
      (hkdf (some (sha256 request)) (asciiBytes "ca2a/response-mac/v1/key") (List.replicate 32 8)) :=
    responseKey_ok_iff.mpr ⟨_, _, _, rfl, rfl, rfl, fromHex?_hex _, rfl⟩
  obtain ⟨pending, hcreate, hwithin⟩ : ∃ pending, PendingResponse.create calleePeer emptyMessage (.finite 30) (3 : UInt8)
      (List.replicate 32 7) (.ok (.finite 0)) = .ok pending ∧ pending.Within (.finite 1) := by
    rw [PendingResponse.create, if_neg (by decide), hrequest, ok_bind]
    simp only [hkey, ok_bind]
    have hbefore : (PyFloat.finite 0).le (.finite 1) = true := by decide +kernel
    have hafter : (PyFloat.finite 1).lt (@Interp.floatAdd Interp.ascii (.finite 0) (.finite 30)) = true := by decide +kernel
    exact ⟨_, rfl, rfl, hbefore, hafter⟩
  have hpub : calleePeer.publicKey = hex (Crypto.xPublic (5 : UInt8)) := rfl
  obtain ⟨envelope, hd, producer, hp⟩ := producer_of_fresh (Crypto.variant_symmetricExchange sha256 hkdf hmac)
    (PendingResponse.fresh_of_create hcreate) hpub rfl rfl
  exact ⟨pending, envelope, producer, hcreate, hwithin, hd, hp⟩

end

@[reducible] def Crypto.zeroDigest : Crypto :=
  Crypto.variant (fun _ => List.replicate 32 0) (fun _ _ ikm => ikm) fun _ _ => List.replicate 32 0

def acceptedBody : JsonDict := ⟨[(lit "accepted", .bool true)], by simp [Dict.keys]⟩

/-- What a producer without digest or MAC finishes. -/
def acceptedResult : Dict Json :=
  [(lit "profile", .str responseProfile), (lit "request_sha256", .str (hex (List.replicate 32 0))), (lit "status", .int 200),
    (lit "kind", .str (lit "provenance")), (lit "body", .obj acceptedBody.items), (lit "mac", .str (hex (List.replicate 32 0)))]

theorem acceptedResult_encodes : (@encode Interp.ascii acceptedResult).isOk = true ∧
    (@encode Interp.ascii (Dict.erase acceptedResult (lit "mac"))).isOk = true ∧
    (utf8? (@dumps Interp.ascii (.obj acceptedResult))).any (·.length ≤ maxBytes) = true := by
  decide +kernel

/-- A response that is accepted. -/
theorem exists_accepted :
    let _ := Interp.ascii
    let _ := Crypto.zeroDigest
    ∃ pending raw r,
      PendingResponse.create calleePeer emptyMessage (.finite 30) (3 : UInt8) (List.replicate 32 7) (.ok (.finite 0)) =
        .ok pending ∧
      (pending.verify { status := .int 200, raw, before := some (.finite 1), after := some (.finite 1) }).1 = .ok r := by
  intro _ _
  obtain ⟨pending, envelope, producer, hcreate, hwithin, hd, hprod⟩ := exists_exchange (fun _ => List.replicate 32 0)
    (fun _ _ ikm => ikm) fun _ _ => List.replicate 32 0
  have hp := PendingResponse.fresh_of_create hcreate
  have hb := built_of_request hp hd hprod
  obtain ⟨henc, hstmt, hdump⟩ := acceptedResult_encodes
  obtain ⟨wire, hwire⟩ := exists_of_isOk henc
  obtain ⟨raw, hraw⟩ := exists_of_isOk hstmt
  obtain ⟨data, hdata, hlen⟩ := (Option.any_eq_true _ _).mp hdump
  have hf : producer.finish 200 acceptedBody = .ok acceptedResult := by
    refine ResponseProducer.finish_ok_iff.mpr ⟨raw, wire, ?_, ?_, hwire⟩
    · rw [← hraw, ResponseProducer.statement, hb.requestSha256]
      rfl
    · rw [ResponseProducer.statement, hb.requestSha256]
      rfl
  refine ⟨pending, data, _, hcreate, verify_of_decode (Crypto.variant_symmetricExchange _ _ _) (fun _ _ => rfl) hp hb hf
    (.inl rfl) rfl hwithin hwithin ?_⟩
  exact decode_dumps (wf_finish hf) hwire hdata (of_decide_eq_true hlen)

end Ca2a
