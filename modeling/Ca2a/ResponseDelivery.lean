/-
Whether an authenticated answer reaches the caller.

`finish` bounds the canonical encoding of its result. The server sends
`json.dumps` of it instead, which writes spaces and escapes everything that
is not ASCII, and the client and `verify` bound these octets. Up to that bound
both ends agree: they derive one key, and `json.loads` reads back what
`json.dumps` wrote. So an answer is delivered exactly when its body fits
(`finish_delivered_iff`), and a node may answer what its caller never accepts.
-/
import Ca2a.Node
import Ca2a.Py.PrintSize
import Ca2a.ResponseExchange

namespace Ca2a

open Py

/-- SHA-256 and HMAC-SHA256 have 32 octets. -/
structure Crypto.Sizes [Crypto] : Prop where
  sha256 : ∀ b, (Crypto.sha256 b).length = 32
  hmac : ∀ key message, (Crypto.hmac key message).length = 32

section
variable [Interp] [Crypto]

variable {pending : PendingResponse} {peer : VerifiedPeer} {message : JsonDict} {ephemeral privateKey : Crypto.XKey}
  {session : Bytes} {envelope : JsonDict} {producer : ResponseProducer}

/-! ## One text -/

variable {status : Int} {body : JsonDict} {result : Dict Json}

omit [Crypto] in
/-- The server writes every result that was encoded, with an octet for each code point. -/
theorem sendJson_of_encode {raw : Bytes} (henc : encode result = .ok raw) :
    ∃ data, sendJson result = .ok data ∧ data.length = (dumps (.obj result)).length := by
  have hcan := (canonicalize_ok_iff.mp (encode_ok_iff.mp henc).2.1).1
  obtain ⟨data, hd, hl⟩ := utf8?_dumps_length hcan.noFloat
  exact ⟨data, utf8_ok_iff.mpr hd, hl⟩

omit [Interp] [Crypto] in
theorem readBounded_eq (sent : Bytes) :
    readBounded sent =
      if maxBytes < sent.length then
        raise .transportError (lit "peer response exceeds the maximum allowed size")
          (some (lit "body must be at most " ++ decimal maxResponse ++ lit " bytes"))
      else .ok sent := by
  have hmax : maxResponse = maxBytes := rfl
  unfold readBounded
  simp only [List.length_take, hmax]
  split
  · rename_i h
    rw [if_pos (by omega)]
  · rename_i h
    rw [if_neg (by omega), List.take_of_length_le (by omega)]

omit [Interp] [Crypto] in
/-- The client passes on what it read, up to its bound. -/
theorem readBounded_ok_iff {sent raw : Bytes} : readBounded sent = .ok raw ↔ sent.length ≤ maxBytes ∧ raw = sent := by
  rw [readBounded_eq]
  split
  · rename_i h
    simp only [raise_ne_ok, false_iff, not_and]
    omega
  · rename_i h
    simp only [Except.ok.injEq, eq_comm (a := sent), iff_and_self]
    omega

/-- The octets the server writes around a body. -/
def responseOverhead (status : Int) : Nat := if status = 200 then 243 else 239

omit [Interp] [Crypto] in
theorem strInt_status_length (hs : PendingResponse.StatusFits status) : (strInt status).length = 3 := by
  obtain ⟨n, rfl⟩ : ∃ n : Nat, status = n := ⟨status.toNat, by rcases hs with h | h <;> omega⟩
  have hn : 100 ≤ n ∧ n < 1000 := by rcases hs with h | h <;> omega
  show (decimal n).length = 3
  rw [decimal_eq, if_neg (by omega), decimal_eq, if_neg (by omega), decimal_eq, if_pos (by omega)]
  rfl

/-- What a style writes around the body of an answer: its texts are plain. -/
theorem print_result_length {st : Style} (hst : st.KeepsPlain) (hsize : Crypto.Sizes) {request mac : Bytes}
    (hmac : mac.length = 32) (hb : producer.Built privateKey request) (hs : PendingResponse.StatusFits status) :
    (st.print (.obj (producer.statement status body ++ [(lit "mac", .str (hex mac))]))).length =
      (st.print (.obj body.items)).length + 5 * st.comma.length + 6 * st.colon.length +
        if status = 200 then 221 else 217 := by
  have hquote : ∀ s, Plain s → (st.quote s).length = s.length + 2 := fun _ => quote_plain_length hst
  have hhash : (st.quote producer.requestSha256).length = 66 := by
    rw [hb.requestSha256, Crypto.sha256Hex, hquote _ (plain_hex _), hex_length, hsize.sha256]
  have htag : (st.quote (hex mac)).length = 66 := by rw [hquote _ (plain_hex _), hex_length, hmac]
  have hkind : (st.quote (responseKind status)).length = if status = 200 then 12 else 8 := by
    unfold responseKind
    split <;> rw [hquote _ (by decide)] <;> rfl
  simp only [ResponseProducer.statement, Style.print, Style.printFields_eq, Style.field, List.cons_append, List.nil_append,
    List.map_cons, List.map_nil, List.length_cons, List.length_append, join_length, List.sum_cons, List.sum_nil,
    List.length_nil, hhash, htag, hkind, strInt_status_length hs,
    show (st.quote (lit "profile")).length = 9 from hquote _ (by decide),
    show (st.quote responseProfile).length = 22 from hquote _ (by decide),
    show (st.quote (lit "request_sha256")).length = 16 from hquote _ (by decide),
    show (st.quote (lit "status")).length = 8 from hquote _ (by decide),
    show (st.quote (lit "kind")).length = 6 from hquote _ (by decide),
    show (st.quote (lit "body")).length = 6 from hquote _ (by decide),
    show (st.quote (lit "mac")).length = 5 from hquote _ (by decide)]
  split <;> omega

/-- **The size of an answer on the wire.** -/
theorem dumps_result_length (hsize : Crypto.Sizes) {request mac : Bytes} (hmac : mac.length = 32)
    (hb : producer.Built privateKey request) (hs : PendingResponse.StatusFits status) :
    (dumps (.obj (producer.statement status body ++ [(lit "mac", .str (hex mac))]))).length =
      (dumps (.obj body.items)).length + responseOverhead status := by
  have hcomma : dumpsStyle.comma.length = 2 := rfl
  have hcolon : dumpsStyle.colon.length = 2 := rfl
  rw [dumps, print_result_length dumpsStyle_keepsPlain hsize hmac hb hs, responseOverhead, dumps, hcomma, hcolon]
  split <;> omega

/-! ## Delivery -/

/-- The result reaches the caller: what the server writes for it passes the client's bound, and `verify`
returns the body. -/
def Delivered (pending : PendingResponse) (status : Int) (body : JsonDict) (result : Dict Json) (before after : PyFloat) :
    Prop :=
  ∃ data, sendJson result = .ok data ∧ readBounded data = .ok data ∧
    (pending.verify { status := .int status, raw := data, before := some before, after := some after }).1 =
      .ok { status, body := body.items, requestSha256 := pending.requestSha256, peerAssurance := pending.assurance }

/-- A body fits when `json.dumps` of it leaves room for the rest of the answer. -/
def BodyFitsWire (status : Int) (body : JsonDict) : Prop :=
  (dumps (.obj body.items)).length + responseOverhead status ≤ maxBytes

/-- **When a finished answer is delivered**: when its body fits the wire. -/
theorem finish_delivered_iff (hx : Crypto.SymmetricExchange) (hsize : Crypto.Sizes)
    (hp : pending.Fresh peer message ephemeral session)
    (hb : producer.Built privateKey pending.request) (hf : producer.finish status body = .ok result)
    (hs : PendingResponse.StatusFits status) (hbody : PendingResponse.bodyFits status body.items = true)
    {before after : PyFloat} (hbefore : pending.Within before) (hafter : pending.Within after) :
    Delivered pending status body result before after ↔ BodyFitsWire status body := by
  obtain ⟨raw, wire, hraw, hres, hwire⟩ := ResponseProducer.finish_ok_iff.mp hf
  obtain ⟨data, hdata, hlen⟩ := sendJson_of_encode hwire
  have hdatalen : data.length = (dumps (.obj body.items)).length + responseOverhead status := by
    rw [hlen, hres]
    exact dumps_result_length hsize (hsize.hmac _ _) hb hs
  rw [BodyFitsWire, ← hdatalen]
  constructor
  · rintro ⟨data', hdata', hread, _⟩
    obtain rfl : data = data' := Except.ok.inj (hdata.symm.trans hdata')
    exact (readBounded_ok_iff.mp hread).1
  · intro hl
    exact ⟨data, hdata, readBounded_ok_iff.mpr ⟨hl, rfl⟩,
      verify_of_decode hx hsize.hmac hp hb hf hs hbody hbefore hafter (decode_dumps (wf_finish hf) hwire (utf8_ok_iff.mp hdata) hl)⟩

/-! ## What can be finished -/

omit [Interp] [Crypto] in
theorem jcs_keepsPlain : jcs.KeepsPlain := by
  rintro c ⟨hl, hh, hb⟩
  show escapeChar c = [c]
  unfold escapeChar shortEscapes
  split
  · rename_i h
    split at h <;> first | omega | cases h
  · rw [if_neg (by omega)]

omit [Crypto] in
/-- A short enough text is encoded: UTF-8 has at most four octets for each code point. -/
theorem encode_of_length {d : Dict Json} (hc : check 0 (.obj d) = .ok ()) (hd : Canonical (.obj d))
    (hl : 4 * (jcs.print (.obj d)).length ≤ maxBytes) : ∃ raw, encode d = .ok raw := by
  obtain ⟨raw, hraw⟩ := utf8?_isSome_iff.mpr (jcs_print_clean hd)
  have hlen := utf8?_length_le hraw
  rw [print_norm_length] at hlen
  exact ⟨raw, encode_ok_iff.mpr ⟨hc, canonicalize_ok_iff.mpr ⟨hd, hraw⟩, hlen.trans hl⟩⟩

omit [Interp] [Crypto] in
/-- `json.dumps` writes no fewer octets than the canonical form has. -/
theorem jcs_within : jcs.Within dumpsStyle where
  esc := by
    intro c
    change utf8Length (escapeChar c) ≤ (asciiEsc c).length
    have hascii : ∀ n, ∀ h : n < 0x80, utf8Length (escapeChar ⟨n, by omega⟩) ≤ (asciiEsc ⟨n, by omega⟩).length := by
      decide +kernel
    by_cases hc : c.val < 0x80
    · exact hascii c.val hc
    · have hplain : escapeChar c = [c] := by
        rw [escapeChar, shortEscapes_none (by omega)]
        exact if_neg (by omega)
      have hlong : 6 ≤ (asciiEsc c).length := by
        have hu : (lit "\\u").length = 2 := rfl
        unfold asciiEsc
        split_ifs <;> first | omega | simp [hu]
      have := utf8Length_char_le c
      rw [hplain, utf8Length_cons, utf8Length_nil]
      omega
  comma := by decide
  colon := by decide

omit [Crypto] in
theorem encode_of_dumps {d : Dict Json} (hc : check 0 (.obj d) = .ok ()) (hd : Canonical (.obj d))
    (hl : (dumps (.obj d)).length ≤ maxBytes) : ∃ raw, encode d = .ok raw := by
  obtain ⟨raw, hraw⟩ := utf8?_isSome_iff.mpr (jcs_print_clean hd)
  have hlen := jcs_within.print_le (Json.noFloat_norm.mpr hd.noFloat)
  rw [print_norm_length, ← utf8?_length hraw] at hlen
  exact ⟨raw, encode_ok_iff.mpr ⟨hc, canonicalize_ok_iff.mpr ⟨hd, hraw⟩, hlen.trans hl⟩⟩

/-- A body can be finished when the statement about it is encoded, without its MAC and with it. -/
theorem finish_of_encodes (hsize : Crypto.Sizes) {request : Bytes} (hb : producer.Built privateKey request)
    (hs : PendingResponse.StatusFits status) (hc : check 1 (.obj body.items) = .ok ()) (hbody : Canonical (.obj body.items))
    (hfits : ∀ d mac, mac.length = 32 → d <+: producer.statement status body ++ [(lit "mac", .str (hex mac))] →
      check 0 (.obj d) = .ok () → Canonical (.obj d) → ∃ raw, encode d = .ok raw) :
    ∃ result, producer.finish status body = .ok result := by
  have hhash : Clean producer.requestSha256 := by
    rw [hb.requestSha256]
    exact clean_hex _
  have hkind : Clean (responseKind status) := by
    unfold responseKind
    split <;> exact clean_lit _
  have hint : status.natAbs ≤ maxSafeInteger := by
    unfold maxSafeInteger
    rcases hs with h | h <;> omega
  have hcanon : Canonical (.obj (producer.statement status body)) := by
    simpa [ResponseProducer.statement, responseProfile, hhash, hkind, hint] using hbody
  have hcheck : check 0 (.obj (producer.statement status body)) = .ok () := by
    have hstr : ∀ s, check 1 (.str s) = .ok () := fun _ => rfl
    have hstatus : check 1 (.int status) = .ok () := rfl
    rw [check_obj_ok_iff]
    simp [ResponseProducer.statement, hc, hstr, hstatus]
  obtain ⟨raw, hraw⟩ := hfits _ _ (hsize.hmac [] []) (List.prefix_append _ _) hcheck hcanon
  obtain ⟨wire, hwire⟩ := hfits
    (producer.statement status body ++ [(lit "mac", .str (hex (Crypto.hmac producer.key (macMessage raw))))]) _
    (hsize.hmac _ _) List.prefix_rfl
    (by rw [check_obj_ok_iff] at hcheck ⊢; simpa [or_imp, forall_and, check] using hcheck.2)
    (by rw [canonical_obj] at hcanon ⊢; simpa [or_imp, forall_and] using hcanon)
  exact ⟨_, ResponseProducer.finish_ok_iff.mpr ⟨raw, wire, hraw, rfl, hwire⟩⟩

omit [Crypto] in
theorem print_obj_prefix_length (st : Style) {d e : Dict Json} (h : d <+: e) :
    (st.print (.obj d)).length ≤ (st.print (.obj e)).length := by
  obtain ⟨rest, rfl⟩ := h
  exact print_obj_append_length st d rest

/-- A body of a quarter of the bound, in code points, can be finished. -/
theorem finish_of_length (hsize : Crypto.Sizes) {request : Bytes} (hb : producer.Built privateKey request)
    (hs : PendingResponse.StatusFits status) (hc : check 1 (.obj body.items) = .ok ()) (hbody : Canonical (.obj body.items))
    (hl : 4 * ((jcs.print (.obj body.items)).length + 232) ≤ maxBytes) : ∃ result, producer.finish status body = .ok result := by
  refine finish_of_encodes hsize hb hs hc hbody fun d mac hmac hprefix hcheck hcanon => ?_
  refine encode_of_length hcheck hcanon ((Nat.mul_le_mul_left 4 (print_obj_prefix_length jcs hprefix)).trans ?_)
  have hcomma : jcs.comma.length = 1 := rfl
  have hcolon : jcs.colon.length = 1 := rfl
  rw [print_result_length jcs_keepsPlain hsize hmac hb hs, hcomma, hcolon]
  split <;> omega

/-- **A body that fits the wire can be finished.** -/
theorem finish_of_fits (hsize : Crypto.Sizes) {request : Bytes} (hb : producer.Built privateKey request)
    (hs : PendingResponse.StatusFits status) (hc : check 1 (.obj body.items) = .ok ()) (hbody : Canonical (.obj body.items))
    (hl : BodyFitsWire status body) : ∃ result, producer.finish status body = .ok result := by
  refine finish_of_encodes hsize hb hs hc hbody fun d mac hmac hprefix hcheck hcanon => ?_
  refine encode_of_dumps hcheck hcanon ((print_obj_prefix_length dumpsStyle hprefix).trans ?_)
  exact (dumps_result_length hsize hmac hb hs).le.trans hl

/-! ## The answers of a node -/

/-- What a node answers has a status and a body the caller accepts. -/
theorem PeerNode.answer_fits {node : PeerNode} {request : Dict Json} {clock : Readings}
    (h : node.answer request clock = .ok (status, body)) :
    PendingResponse.StatusFits status ∧ PendingResponse.bodyFits status body.items = true := by
  unfold PeerNode.answer at h
  split at h
  · rename_i answered ha
    cases h
    simp only [bind_ok_iff, serializePeerResult, Except.ok.injEq] at ha
    obtain ⟨_, _, _, _, rfl⟩ := ha
    exact ⟨.inl rfl, by simp [PendingResponse.bodyFits, Dict.get?_cons]⟩
  · rename_i exc _
    cases h
    obtain ⟨hlow, hhigh⟩ := exc.cls.httpStatus_range
    have hne : (exc.cls.httpStatus : Int) ≠ 200 := by omega
    exact ⟨.inr ⟨by omega, by omega⟩, by simp [PendingResponse.bodyFits, serializeError, Dict.get?_cons, hne]⟩
  · cases h

/-- An authenticated answer is `finish` of the node's answer to the request it was sent. -/
theorem PeerNode.handleAuthenticated_ok {node : PeerNode} {clock : Readings}
    (h : node.handleAuthenticated envelope clock = .ok (status, result)) :
    ∃ producer request body, ResponseProducer.create node.privateKey envelope = .ok producer ∧
      Dict.get? producer.envelope (lit "request") = some (.obj request) ∧
      node.answer request clock = .ok (status, body) ∧ producer.finish status body = .ok result := by
  simp only [PeerNode.handleAuthenticated, bind_ok_iff, item_ok_iff, Except.ok.injEq, Prod.mk.injEq] at h
  obtain ⟨producer, hc, request, hr, ⟨status', body⟩, ha, result', hf, rfl, rfl⟩ := h
  obtain ⟨_, _, hb⟩ := ResponseProducer.built_of_create hc
  obtain ⟨message, hm⟩ := hb.request
  obtain rfl : request = .obj message := Option.some.inj (hr.symm.trans hm)
  exact ⟨producer, message, body, hc, hr, ha, hf⟩

/-- **Delivery.** What a producer of this request finishes, and what a node answers to it, is
accepted by the caller in time exactly when the body fits the wire. -/
theorem authenticated_answer_delivered_iff (hx : Crypto.SymmetricExchange) (hsize : Crypto.Sizes) {timeout : PyFloat} {clock : Result PyFloat}
    (hcreate : PendingResponse.create peer message timeout ephemeral session clock = .ok pending)
    (hd : decode pending.request = .ok envelope.items) {before after : PyFloat} (hbefore : pending.Within before)
    (hafter : pending.Within after) :
    (∀ privateKey producer status body result, ResponseProducer.create privateKey envelope = .ok producer →
      PendingResponse.StatusFits status → PendingResponse.bodyFits status body.items = true →
      producer.finish status body = .ok result →
      (Delivered pending status body result before after ↔ BodyFitsWire status body)) ∧
    ∀ (node : PeerNode) readings status result, node.handleAuthenticated envelope readings = .ok (status, result) →
      ∃ request body, Dict.get? envelope.items (lit "request") = some (.obj request) ∧
        node.answer request readings = .ok (status, body) ∧
        (Delivered pending status body result before after ↔ BodyFitsWire status body) := by
  have hp := PendingResponse.fresh_of_create hcreate
  constructor
  · intro privateKey producer status body result hprod hs hbody hf
    exact finish_delivered_iff hx hsize hp (built_of_request hp hd hprod) hf hs hbody hbefore hafter
  · intro node readings status result h
    obtain ⟨producer, request, body, hprod, hreq, ha, hf⟩ := PeerNode.handleAuthenticated_ok h
    have hb := built_of_request hp hd hprod
    obtain ⟨hs, hbody⟩ := PeerNode.answer_fits ha
    have henv : producer.envelope = envelope.items := Except.ok.inj (hb.decoded.symm.trans hd)
    rw [henv] at hreq
    exact ⟨request, body, hreq, ha, finish_delivered_iff hx hsize hp hb hf hs hbody hbefore hafter⟩

end

/-! ## A body that is lost -/

/-- An accepted answer with a text of `n` letters, each two octets of UTF-8 and six of `json.dumps`. -/
def accentedBody (n : Nat) : JsonDict where
  items := [(lit "accepted", .bool true), (lit "text", .str (List.replicate n (cp 'é')))]
  wf := by simp [Dict.keys]

theorem Crypto.zeroDigest_sizes : @Crypto.Sizes Crypto.zeroDigest :=
  @Crypto.Sizes.mk Crypto.zeroDigest (fun _ => List.length_replicate) fun _ _ => List.length_replicate

theorem accentedBody_length [Interp] {st : Style} (hst : st.KeepsPlain) (n : Nat) :
    (st.print (.obj (accentedBody n).items)).length =
      n * (st.esc (cp 'é')).length + st.comma.length + 2 * st.colon.length + 24 := by
  have htext : (st.quote (List.replicate n (cp 'é'))).length = n * (st.esc (cp 'é')).length + 2 := by
    simp [Style.quote, List.length_flatMap]
  simp only [accentedBody, Style.print, Style.printFields_eq, Style.field, List.map_cons, List.map_nil, List.length_cons,
    List.length_append, join_length, List.sum_cons, List.sum_nil, List.length_nil, htext,
    show (st.quote (lit "accepted")).length = 10 from quote_plain_length hst (by decide),
    show (st.quote (lit "text")).length = 6 from quote_plain_length hst (by decide),
    show (lit "true").length = 4 from rfl]
  omega

theorem accentedBody_canonical (n : Nat) : Canonical (.obj (accentedBody n).items) := by
  have hclean : Clean (List.replicate n (cp 'é')) := fun c hc => (List.mem_replicate.mp hc).2 ▸ scalar_cp 'é'
  simp [accentedBody, hclean]

/-- `finish` takes bodies of up to some quarter million letters. -/
theorem accentedBody_finished (n : Nat) (hn : n ≤ 261000) :
    let _ := Interp.ascii
    let _ := Crypto.zeroDigest
    ∀ producer privateKey request, ResponseProducer.Built producer privateKey request →
      ∃ result, producer.finish 200 (accentedBody n) = .ok result := by
  intro _ _ producer privateKey request hb
  refine finish_of_length Crypto.zeroDigest_sizes hb (.inl rfl) ?_ (accentedBody_canonical n) ?_
  · rfl
  · rw [accentedBody_length jcs_keepsPlain, show (jcs.esc (cp 'é')).length = 1 by decide]
    simp only [jcs, show (lit ",").length = 1 from rfl, show (lit ":").length = 1 from rfl, maxBytes]
    omega

theorem accentedBody_fits_iff (n : Nat) : @BodyFitsWire Interp.ascii 200 (accentedBody n) ↔ 6 * n + 273 ≤ maxBytes := by
  have hcomma : dumpsStyle.comma.length = 2 := rfl
  have hcolon : dumpsStyle.colon.length = 2 := rfl
  have hesc : (dumpsStyle.esc (cp 'é')).length = 6 := by decide
  unfold BodyFitsWire dumps
  rw [@accentedBody_length Interp.ascii _ dumpsStyle_keepsPlain, hcomma, hcolon, hesc, responseOverhead, if_pos rfl]
  omega

/-- A short answer arrives. -/
theorem accentedBody_delivered :
    let _ := Interp.ascii
    let _ := Crypto.zeroDigest
    ∃ pending envelope producer result,
      PendingResponse.create calleePeer emptyMessage (.finite 30) (3 : UInt8) (List.replicate 32 7) (.ok (.finite 0)) =
        .ok pending ∧
      decode pending.request = .ok envelope.items ∧ ResponseProducer.create (5 : UInt8) envelope = .ok producer ∧
      producer.finish 200 (accentedBody 3) = .ok result ∧
      Delivered pending 200 (accentedBody 3) result (.finite 1) (.finite 1) := by
  intro _ _
  obtain ⟨pending, envelope, producer, hcreate, hwithin, hd, hprod⟩ := exists_exchange (fun _ => List.replicate 32 0)
    (fun _ _ ikm => ikm) fun _ _ => List.replicate 32 0
  have hb := built_of_request (PendingResponse.fresh_of_create hcreate) hd hprod
  obtain ⟨result, hf⟩ := accentedBody_finished 3 (by decide) producer _ _ hb
  have h := (authenticated_answer_delivered_iff (Crypto.variant_symmetricExchange _ _ _) Crypto.zeroDigest_sizes hcreate hd
    hwithin hwithin).1 _ producer 200 (accentedBody 3) result hprod (.inl rfl) rfl hf
  refine ⟨pending, envelope, producer, result, hcreate, hd, hprod, hf, ?_⟩
  rw [h, accentedBody_fits_iff]
  decide

/-- **A lost answer.** A producer finishes it, and the caller never accepts what the server writes. -/
theorem accentedBody_lost :
    let _ := Interp.ascii
    let _ := Crypto.zeroDigest
    ∃ pending envelope producer result,
      PendingResponse.create calleePeer emptyMessage (.finite 30) (3 : UInt8) (List.replicate 32 7) (.ok (.finite 0)) =
        .ok pending ∧ pending.Within (.finite 1) ∧
      decode pending.request = .ok envelope.items ∧ ResponseProducer.create (5 : UInt8) envelope = .ok producer ∧
      PendingResponse.bodyFits 200 (accentedBody 200000).items = true ∧
      producer.finish 200 (accentedBody 200000) = .ok result ∧
      ¬ Delivered pending 200 (accentedBody 200000) result (.finite 1) (.finite 1) := by
  intro _ _
  obtain ⟨pending, envelope, producer, hcreate, hwithin, hd, hprod⟩ := exists_exchange (fun _ => List.replicate 32 0)
    (fun _ _ ikm => ikm) fun _ _ => List.replicate 32 0
  have hb := built_of_request (PendingResponse.fresh_of_create hcreate) hd hprod
  obtain ⟨result, hf⟩ := accentedBody_finished 200000 (by decide) producer _ _ hb
  refine ⟨pending, envelope, producer, result, hcreate, hwithin, hd, hprod, rfl, hf, ?_⟩
  rw [finish_delivered_iff (Crypto.variant_symmetricExchange _ _ _) Crypto.zeroDigest_sizes
    (PendingResponse.fresh_of_create hcreate) hb hf (.inl rfl) rfl hwithin hwithin, accentedBody_fits_iff]
  decide

end Ca2a
