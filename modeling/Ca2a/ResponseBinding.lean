/-
An authenticated response was produced for this request, by the holder of
the appraised key.

The MACs of the system are a list of events: producers that finished,
challenges, proofs of possession, and whatever the adversary computes. HMAC is
ideal for the delivered bytes when each tag in them is the tag of an event
(`IdealMac`). The adversary holds some channel keys; a key derived from an
agreement is within its reach only if it holds one of the two private keys
(`WithinReach`). What is left is to see which event can have the key and
the message that `verify` checks: the challenges and the proofs of
possession authenticate other messages, the adversary does not reach the key,
and a producer's key fixes its request (`producer_of_key`).
-/
import Ca2a.ResponseHistory

namespace Ca2a

open Py

/-- HKDF is injective. -/
def Crypto.InjectiveHkdf [Crypto] : Prop :=
  ∀ salt salt' info info' ikm ikm', Crypto.hkdf salt info ikm = Crypto.hkdf salt' info' ikm' →
    salt = salt' ∧ info = info' ∧ ikm = ikm'

/-- A MAC somebody computed, and may have shown to others. -/
inductive MacEvent [Crypto]
  /-- A `ResponseProducer` built from the envelope returned from `finish`. -/
  | finish (privateKey : Crypto.XKey) (envelope : JsonDict) (status : Int) (body : JsonDict)
  /-- A challenge was issued or checked. -/
  | challenge (secret : Bytes) (expiry : Int) (rand : Str)
  /-- A proof of possession was made or checked. -/
  | possession (privateKey : Crypto.XKey) (peerPublicKey callerChannelKey calleeChannelKey : Str)
      (transcript : Dict Json)
  | adversary (key message : Bytes)

section
variable [Crypto]

/-- The key is no HKDF of an agreement the adversary takes no part in. -/
def WithinReach (holds : Crypto.XKey → Prop) (key : Bytes) : Prop :=
  ∀ salt info privateKey pub shared, Crypto.exchange privateKey pub = .ok shared → key = Crypto.hkdf salt info shared →
    holds privateKey ∨ ∃ other, holds other ∧ Crypto.xPublic other = pub

/-- An adversary with the private keys `holds`: it computes MACs under the keys within its reach. -/
def Adversary (holds : Crypto.XKey → Prop) (run : List MacEvent) : Prop :=
  ∀ key message, MacEvent.adversary key message ∈ run → WithinReach holds key

variable [Interp]

/-- The event computes the MAC of the message under the key. -/
def MacEvent.Computes : MacEvent → (key message : Bytes) → Prop
  | .finish privateKey envelope status body, key, message =>
    ∃ producer result raw, ResponseProducer.create privateKey envelope = .ok producer ∧
      producer.finish status body = .ok result ∧ encode (producer.statement status body) = .ok raw ∧
      key = producer.key ∧ message = macMessage raw
  | .challenge secret expiry rand, key, message =>
    key = secret ∧ utf8 (ε := CA2AError) (lit "v1." ++ strInt expiry ++ lit "." ++ rand) = .ok message
  | .possession privateKey peer caller callee transcript, key, message =>
    possessionKey privateKey peer caller callee = .ok key ∧ ∃ raw, canonicalize (ε := CA2AError) (.obj transcript) = .ok raw ∧
      message = asciiBytes "ca2a/caller-possession/v2/statement" ++ [0] ++ raw
  | .adversary key' message', key, message => key = key' ∧ message = message'

/-- HMAC is ideal for these bytes: their tag is one that was computed. -/
def IdealMac (run : List MacEvent) (raw : Bytes) : Prop :=
  ∀ received, decode raw = .ok received → ∀ key message,
    Dict.get? received (lit "mac") = some (.str (hex (Crypto.hmac key message))) → ∃ e ∈ run, e.Computes key message

/-! ## Which event has the message -/

omit [Crypto] [Interp] in
theorem macMessage_injective : Function.Injective macMessage := fun _ _ h => List.append_cancel_left h

omit [Crypto] [Interp] in
theorem macMessage_ne_possession (raw raw' : Bytes) :
    macMessage raw ≠ asciiBytes "ca2a/caller-possession/v2/statement" ++ [0] ++ raw' := by
  intro h
  have := congrArg (List.take 6) h
  simp only [macMessage, asciiBytes] at this
  revert this
  simp

omit [Crypto] in
/-- What is authenticated of a challenge begins with its version. -/
theorem head_of_challenge {message : Bytes} {s : Str} (h : utf8 (ε := CA2AError) (lit "v1." ++ s) = .ok message) :
    message.head? = some 0x76 := by
  have hv : CodePoint.utf8? (cp 'v') = some [0x76] := by decide
  rw [utf8_ok_iff, show lit "v1." = cp 'v' :: lit "1." from rfl, List.cons_append, utf8?, hv] at h
  simp only [Option.bind_eq_bind, Option.bind_some, Option.bind_eq_some_iff] at h
  obtain ⟨bs, _, h⟩ := h
  cases h
  rfl

omit [Crypto] in
theorem macMessage_ne_challenge {raw message : Bytes} {s : Str}
    (h : utf8 (ε := CA2AError) (lit "v1." ++ s) = .ok message) : macMessage raw ≠ message := by
  rintro rfl
  have := head_of_challenge h
  simp [macMessage, asciiBytes] at this

/-! ## Which producer has the key -/

variable {pending : PendingResponse} {peer : VerifiedPeer} {message : JsonDict} {ephemeral : Crypto.XKey} {session : Bytes}

/-- The key of a producer fixes its request: the digest of the request is the salt. -/
theorem producer_of_key (hsha : Function.Injective Crypto.sha256) (hhkdf : Crypto.InjectiveHkdf)
    (hp : pending.Fresh peer message ephemeral session) {producer : ResponseProducer} {privateKey : Crypto.XKey}
    {request : Bytes} (hb : producer.Built privateKey request) (hkey : producer.key = pending.key) :
    request = pending.request := by
  obtain ⟨recipient, _, hk⟩ := hb.key
  obtain ⟨_, _, salt, _, _, _, hsalt, hk⟩ := responseKey_ok_iff.mp hk
  obtain ⟨_, _, salt', _, _, _, hsalt', hk'⟩ := responseKey_ok_iff.mp hp.key
  have heq := (hhkdf _ _ _ _ _ _ (hk.symm.trans (hkey.trans hk'))).1
  rw [hb.requestSha256, Crypto.sha256Hex, fromHex?_hex] at hsalt
  rw [hp.requestSha256, Crypto.sha256Hex, fromHex?_hex] at hsalt'
  exact hsha (Option.some.inj (hsalt.trans (heq.trans hsalt'.symm)))

/-- The key of a pending response is out of reach of who holds neither private key. -/
theorem key_out_of_reach (hp : pending.Fresh peer message ephemeral session) {holds : Crypto.XKey → Prop}
    (heph : ¬ holds ephemeral) (hpeer : ∀ privateKey, hex (Crypto.xPublic privateKey) = peer.publicKey → ¬ holds privateKey) :
    ¬ WithinReach holds pending.key := by
  obtain ⟨pub, shared, salt, hpub, _, hs, _, hk⟩ := responseKey_ok_iff.mp hp.key
  intro h
  rcases h _ _ _ _ _ hs hk with h | ⟨other, ho, rfl⟩
  · exact heph h
  · exact hpeer other (Json.str.inj hpub).symm ho

omit [Crypto] in
/-- The statement of a producer with the same encoding has the fields that were received. -/
theorem statement_of_received {received body : Dict Json} {hash tag : Str} {status status' : Int} {raw : Bytes}
    {producer : ResponseProducer} {body' : JsonDict} (hr : PendingResponse.Received received hash status body tag)
    (hw : (Json.obj received).WF) (h : encode (Dict.erase received (lit "mac")) = .ok raw)
    (h' : encode (producer.statement status' body') = .ok raw) : status' = status ∧ (Json.obj body'.items).Same (.obj body) := by
  have hf := fields_of_canonicalize (producer.wf_statement status' body') (hw.erase (lit "mac")) (encode_ok_iff.mp h').2.1 (encode_ok_iff.mp h).2.1
  have hs := hf (lit "status")
  have hb := hf (lit "body")
  rw [Dict.get?_erase_other _ (by decide), hr.status] at hs
  rw [Dict.get?_erase_other _ (by decide), hr.body] at hb
  simp only [ResponseProducer.statement, Dict.get?_cons] at hs hb
  constructor
  · simpa using hs
  · simpa using hb

/-- **Response binding.** An accepted response was made by `finish`, with the same status and body,
by a producer with the private key of the appraised peer and the envelope of this request. -/
theorem response_binding (hsha : Function.Injective Crypto.sha256) (hhkdf : Crypto.InjectiveHkdf) {timeout : PyFloat}
    {clock : Result PyFloat} (hp : PendingResponse.create peer message timeout ephemeral session clock = .ok pending)
    {run : List MacEvent} {holds : Crypto.XKey → Prop} (hadv : Adversary holds run) (heph : ¬ holds ephemeral)
    (hpeer : ∀ privateKey, hex (Crypto.xPublic privateKey) = peer.publicKey → ¬ holds privateKey)
    (earlier : List VerifyCall) {call : VerifyCall} (hideal : IdealMac run call.raw) {r : VerifiedResponse}
    (hv : ((serial PendingResponse.verifySection pending earlier).2.verify call).1 = .ok r) :
    ∃ privateKey envelope body, MacEvent.finish privateKey envelope r.status body ∈ run ∧
      hex (Crypto.xPublic privateKey) = peer.publicKey ∧
      (∃ requested, decode pending.request = .ok requested ∧ (Json.obj envelope.items).Same (.obj requested)) ∧
      call.status = .int r.status ∧ (Json.obj body.items).Same (.obj r.body) := by
  have hf := PendingResponse.fresh_of_create hp
  -- only the first call can return
  have hauth : pending.authenticate pending.key call = .ok r := by
    cases earlier with
    | nil => rwa [serial, PendingResponse.verify_eq, if_neg (by simp [hf.unused])] at hv
    | cons first rest =>
      simp [PendingResponse.serial_verify hf.unused, PendingResponse.verify_eq, PendingResponse.spent] at hv
  obtain ⟨received, raw, status, body, _, hdec, hst, _, hraw, _, hr, _, _, rfl⟩ :=
    PendingResponse.authenticate_ok_iff.mp hauth
  obtain ⟨e, he, hcomp⟩ := hideal received hdec _ _ hr.mac
  cases e with
  | finish privateKey envelope status' body' =>
    obtain ⟨producer, result, raw', hcreate, _, hraw', hkey, hmsg⟩ := hcomp
    obtain rfl := macMessage_injective hmsg
    obtain ⟨request, henc, hb⟩ := ResponseProducer.built_of_create hcreate
    obtain rfl := producer_of_key hsha hhkdf hf hb hkey.symm
    obtain ⟨rfl, hbody⟩ := statement_of_received hr (wf_of_decode hdec) hraw hraw'
    refine ⟨privateKey, envelope, body', he, peer_of_request hf hb, ⟨producer.envelope, hb.decoded, ?_⟩, hst, hbody⟩
    exact same_of_encode envelope.wf (wf_of_decode hb.decoded) henc hb.encoded
  | challenge secret expiry rand =>
    obtain ⟨_, hm⟩ := hcomp
    rw [List.append_assoc, List.append_assoc] at hm
    exact absurd rfl (macMessage_ne_challenge hm)
  | possession privateKey peer caller callee transcript =>
    obtain ⟨_, raw', _, hm⟩ := hcomp
    exact absurd hm (macMessage_ne_possession raw raw')
  | adversary key message =>
    obtain ⟨rfl, rfl⟩ := hcomp
    exact absurd (hadv _ _ he) (key_out_of_reach hf heph hpeer)

end

/-! ## An exchange with an ideal MAC -/

/-- The octets of `l`, then those of `r`, and where `l` ends. -/
def frame : (l r : Bytes) → Bytes
  | [], r => 0 :: r
  | b :: l, r => 1 :: b :: frame l r

theorem frame_injective {l l' r r' : Bytes} (h : frame l r = frame l' r') : l = l' ∧ r = r' := by
  induction l generalizing l' with
  | nil =>
    cases l' with
    | nil => simpa [frame] using h
    | cons => simp [frame] at h
  | cons b l ih =>
    cases l' with
    | nil => simp [frame] at h
    | cons b' l' =>
      simp only [frame, List.cons.injEq, true_and] at h
      obtain ⟨rfl, rfl⟩ := ih h.2
      exact ⟨by rw [h.1], rfl⟩

def framedHkdf (salt : Option Bytes) (info ikm : Bytes) : Bytes :=
  frame (salt.elim [] fun s => 0 :: s) (frame info ikm)

def emptyRequest : Bytes :=
  (@encode Interp.ascii (@PendingResponse.envelope Crypto.toy calleePeer emptyMessage (3 : UInt8)
    (List.replicate 32 7))).toOption.getD []

/-- What is authenticated when the empty request is accepted. -/
def acceptedStatement : Dict Json :=
  [(lit "profile", .str responseProfile), (lit "request_sha256", .str (hex emptyRequest)), (lit "status", .int 200),
    (lit "kind", .str (lit "provenance")), (lit "body", .obj acceptedBody.items)]

def acceptedKey : Bytes := framedHkdf (some emptyRequest) (asciiBytes "ca2a/response-mac/v1/key") (List.replicate 32 8)

def acceptedMessage : Bytes := macMessage ((@encode Interp.ascii acceptedStatement).toOption.getD [])

/-- An injective digest and derivation, and a MAC that is one tag for the accepted statement and
another for everything else. -/
@[reducible] def Crypto.marked : Crypto :=
  Crypto.variant id framedHkdf fun key message =>
    if key = acceptedKey ∧ message = acceptedMessage then List.replicate 32 1 else List.replicate 32 0

theorem Crypto.marked_injectiveHkdf : @Crypto.InjectiveHkdf Crypto.marked := by
  intro salt salt' info info' ikm ikm' h
  obtain ⟨hs, h⟩ := frame_injective h
  refine ⟨?_, frame_injective h⟩
  cases salt <;> cases salt' <;> simp_all

theorem Crypto.marked_hmac {key message : Bytes} :
    @Crypto.hmac Crypto.marked key message = List.replicate 32 1 ↔ key = acceptedKey ∧ message = acceptedMessage := by
  change (if key = acceptedKey ∧ message = acceptedMessage then List.replicate 32 1 else List.replicate 32 0) = _ ↔ _
  split
  · simp_all
  · rename_i h
    simp only [h, iff_false]
    decide

theorem Crypto.marked_hmac_length (key message : Bytes) : (@Crypto.hmac Crypto.marked key message).length = 32 := by
  change (if key = acceptedKey ∧ message = acceptedMessage then List.replicate 32 1 else List.replicate 32 0).length = 32
  split <;> exact List.length_replicate

def markedResult : Dict Json := acceptedStatement ++ [(lit "mac", .str (hex (List.replicate 32 1)))]

theorem markedResult_encodes : (@encode Interp.ascii markedResult).isOk = true ∧
    (@encode Interp.ascii acceptedStatement).isOk = true ∧
    (utf8? (@dumps Interp.ascii (.obj markedResult))).any (·.length ≤ maxBytes) = true := by
  decide +kernel

/-- The accepted response of the empty request, and the producer it is bound to. -/
theorem response_binding_accepted :
    let _ := Interp.ascii
    let _ := Crypto.marked
    ∃ pending envelope call r,
      PendingResponse.create calleePeer emptyMessage (.finite 30) (3 : UInt8) (List.replicate 32 7) (.ok (.finite 0)) =
        .ok pending ∧
      IdealMac [MacEvent.finish (5 : UInt8) envelope 200 acceptedBody] call.raw ∧ (pending.verify call).1 = .ok r ∧
      r.status = 200 ∧ (Json.obj acceptedBody.items).Same (.obj r.body) := by
  intro _ _
  obtain ⟨pending, envelope, producer, hcreate, hwithin, hd, hprod⟩ := exists_exchange id framedHkdf Crypto.marked.hmac
  have hp := PendingResponse.fresh_of_create hcreate
  have hb := built_of_request hp hd hprod
  have hx : Crypto.SymmetricExchange := Crypto.variant_symmetricExchange id framedHkdf Crypto.marked.hmac
  obtain ⟨henc, hstmt, hdump⟩ := markedResult_encodes
  obtain ⟨wire, hwire⟩ := exists_of_isOk henc
  obtain ⟨raw, hraw⟩ := exists_of_isOk hstmt
  obtain ⟨data, hdata, hlen⟩ := (Option.any_eq_true _ _).mp hdump
  have hrequest : emptyRequest = pending.request := by
    have h := hp.encoded
    change @encode Interp.ascii (@PendingResponse.envelope Crypto.toy calleePeer emptyMessage (3 : UInt8)
      (List.replicate 32 7)) = _ at h
    rw [emptyRequest, h]
    rfl
  have hmessage : macMessage raw = acceptedMessage := by
    rw [acceptedMessage, hraw]
    rfl
  have hkey : producer.key = acceptedKey := by
    rw [key_agreement hx hp hb]
    obtain ⟨pub, shared, salt, hpub, _, hs, hsalt, hk⟩ := responseKey_ok_iff.mp hp.key
    obtain rfl : List.replicate 32 5 = pub := hex_injective (Json.str.inj hpub)
    rw [hp.requestSha256, Crypto.sha256Hex, fromHex?_hex] at hsalt
    obtain rfl := Option.some.inj hsalt
    obtain rfl : List.replicate 32 8 = shared := Except.ok.inj hs
    rw [hk, acceptedKey, hrequest]
    rfl
  have hstatement : producer.statement 200 acceptedBody = acceptedStatement := by
    rw [ResponseProducer.statement, hb.requestSha256, acceptedStatement, hrequest]
    rfl
  have hf : producer.finish 200 acceptedBody = .ok markedResult := by
    refine ResponseProducer.finish_ok_iff.mpr ⟨raw, wire, by rw [hstatement]; exact hraw, ?_, hwire⟩
    rw [hstatement, markedResult, ← Crypto.marked_hmac.mpr ⟨hkey, hmessage⟩]
  have hdec := decode_dumps (wf_finish hf) hwire hdata (of_decide_eq_true hlen)
  have hideal : IdealMac [MacEvent.finish (5 : UInt8) envelope 200 acceptedBody] data := by
    intro received hr key message hmac
    obtain rfl : markedResult = received := Except.ok.inj (hdec.symm.trans hr)
    have htag : hex (List.replicate 32 1) = hex (Crypto.hmac key message) := Json.str.inj (Option.some.inj hmac)
    obtain ⟨rfl, rfl⟩ := Crypto.marked_hmac.mp (hex_injective htag).symm
    refine ⟨_, List.mem_singleton.mpr rfl, ?_⟩
    exact ⟨producer, markedResult, raw, hprod, hf, hstatement ▸ hraw, hkey.symm, hmessage.symm⟩
  have hv := verify_of_decode hx Crypto.marked_hmac_length hp hb hf (.inl rfl) rfl hwithin hwithin hdec
  have hadv : Adversary (fun _ => False) [MacEvent.finish (5 : UInt8) envelope 200 acceptedBody] := by simp [Adversary]
  obtain ⟨_, _, body, hmem, _, _, _, hsame⟩ := response_binding (fun _ _ h => h) Crypto.marked_injectiveHkdf hcreate hadv
    id (fun _ _ => id) [] hideal hv
  simp only [List.mem_singleton, MacEvent.finish.injEq] at hmem
  obtain ⟨_, _, _, rfl⟩ := hmem
  exact ⟨pending, envelope, _, _, hcreate, hideal, hv, rfl, hsame⟩

end Ca2a
