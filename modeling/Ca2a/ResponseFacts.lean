/-
What the functions of `Ca2a.Response` return and raise: everything they
raise is `_fail()`, `encode` and `decode` are inverse up to the order of
keys, and a response authenticates exactly when each check passes.
-/
import Ca2a.Py.LoadsFacts
import Ca2a.Response

namespace Ca2a

open Py

/-- The exception is the one `_fail()` makes. -/
def Fails (e : Exc) : Prop := e = .app responseFailure

@[simp] theorem fails_failure : Fails (.app responseFailure) := rfl

theorem responseFail_spec {α : Type} (post : α → Prop) : Spec responseFail post Fails := rfl

@[simp] theorem responseFail_ne_ok {α : Type} {a : α} : responseFail ≠ .ok a := by simp [responseFail]

@[simp] theorem ensure_ok_iff {p : Prop} [Decidable p] {u : Unit} : ensure p = .ok u ↔ p := by
  unfold ensure
  split <;> simp_all

theorem ensure_spec (p : Prop) [Decidable p] : Spec (ensure p) (fun _ => p) Fails := by
  unfold ensure
  split
  · assumption
  · exact responseFail_spec _

theorem Fails.isCA2A {e : Exc} (h : Fails e) : e.isCA2A := h ▸ trivial

/-- `except ValueError: raise _fail()` -/
theorem caught_ok_iff {α : Type} {kinds : ExcKind → Bool} {x : Result α} {a : α} :
    catchBuiltin kinds x (fun _ => responseFail) = .ok a ↔ x = .ok a :=
  catchBuiltin_ok_iff (by simp)

theorem item_ok_iff {d : Dict Json} {k : Str} {v : Json} : item d k = .ok v ↔ Dict.get? d k = some v := by
  unfold item
  split <;> simp_all

theorem item_spec {d : Dict Json} {k : Str} (h : k ∈ Dict.keys d) :
    Spec (item d k) (fun v => Dict.get? d k = some v) Fails := by
  unfold item
  split
  · assumption
  · rename_i hn
    exact absurd h (Dict.get?_eq_none_iff.mp hn)

/-! ## Objects -/

/-- `_object` gives the items as they stand, or raises for a key that stands twice. -/
theorem objectHook_fold {d e : Dict Json} (hd : (Dict.keys d).Nodup) :
    Spec (e.foldlM (fun (result : Dict Json) kv => do
      ensure (result.has kv.1 = false)
      .ok (result.set kv.1 kv.2)) d)
      (fun r => r = d ++ e ∧ (Dict.keys (d ++ e)).Nodup) fun x => Fails x ∧ ¬ (Dict.keys (d ++ e)).Nodup := by
  induction e generalizing d with
  | nil => exact ⟨by simp, by simpa using hd⟩
  | cons kv e ih =>
    obtain ⟨k, v⟩ := kv
    rw [List.foldlM_cons]
    by_cases hk : k ∈ Dict.keys d
    · have hhas : Dict.has d k = true := Dict.has_iff_mem_keys.mpr hk
      simp only [hhas, ensure, Bool.true_eq_false, if_false, responseFail, error_bind, spec_error, fails_failure, true_and]
      intro hn
      simp only [Dict.keys, List.map_append, List.map_cons, List.nodup_append, List.mem_cons] at hn
      exact hn.2.2 k hk k (.inl rfl) rfl
    · have hhas : Dict.has d k = false := by
        rw [← Bool.not_eq_true, Dict.has_iff_mem_keys]
        exact hk
      simp only [hhas, ensure, if_true, ok_bind, Dict.set_of_not_mem hk]
      have hd' : (Dict.keys (d ++ [(k, v)])).Nodup := by
        simp only [Dict.keys, List.map_append, List.map_cons, List.map_nil]
        exact List.nodup_append.mpr ⟨hd, by simp, by rintro a ha b hb rfl; simp only [List.mem_singleton] at hb; exact hk (hb ▸ ha)⟩
      have h := ih hd'
      rw [List.append_assoc] at h
      exact h

theorem objectHook_spec (pairs : Dict Json) :
    Spec (objectHook pairs) (fun j => j = .obj pairs ∧ (Dict.keys pairs).Nodup)
      fun e => Fails e ∧ ¬ (Dict.keys pairs).Nodup := by
  refine (objectHook_fold (d := []) (by simp [Dict.keys])).bind fun r hr => ?_
  simpa using hr

theorem objectHook_nodup (d : Dict Json) (hd : (Dict.keys d).Nodup) : objectHook d = .ok (.obj d) := by
  cases h : objectHook d with
  | ok j => rw [((objectHook_spec d).of_ok h).1]
  | error e => exact absurd hd ((objectHook_spec d).of_error h).2

section
variable [Interp]

omit [Interp] in
/-- What is parsed has distinct keys; besides `_fail()` there are only `ValueError`s. -/
theorem objectHook_invariant :
    ScanInvariant objectHook Json.WF fun e => Fails e ∨ ∃ k t, e = .builtin k t ∧ k.isValueError = true where
  scalar := by
    intro j hj
    cases j with
    | arr xs => exact hj.elim
    | obj d => exact hj.elim
    | _ => exact trivial
  arr xs h := Json.wf_arr.mpr h
  hook pairs h := (objectHook_spec pairs).mono (fun j hj => hj.1 ▸ Json.wf_obj.mpr ⟨hj.2, h⟩) fun _ he => .inl he.1
  raises k t hk := .inr ⟨k, t, rfl, hk⟩

/-! ## Encoding -/

omit [Interp] in
theorem check_spec (depth : Nat) (j : Json) : Spec (check depth j) (fun _ => True) Fails := by
  induction j generalizing depth with
  | null | bool | int | float | str => exact (ensure_spec _).mono (fun _ _ => trivial) fun _ h => h
  | arr xs ih =>
    refine (ensure_spec _).bind fun _ _ => ?_
    induction xs with
    | nil => exact trivial
    | cons x xs ihx =>
      refine (ih x (by simp) _).bind fun _ _ => ihx fun y hy => ih y (by simp [hy])
  | obj d ih =>
    refine (ensure_spec _).bind fun _ _ => ?_
    induction d with
    | nil => exact trivial
    | cons kv d ihd =>
      refine (ih kv (by simp) _).bind fun _ _ => ihd fun y hy => ih y (by simp [hy])

theorem encode_spec (d : Dict Json) : Spec (encode d) (fun _ => True) Fails := by
  refine catchBuiltin_spec ?_ fun _ => responseFail_spec _
  refine ((check_spec 0 _).mono (fun _ _ => trivial) fun _ h => .inl h).bind fun _ _ => ?_
  refine Spec.bind ((canonicalize_spec (.obj d)).mono (fun _ _ => trivial) ?_) fun raw _ => ?_
  · intro e he
    cases e with
    | builtin k t => exact .inr ⟨k, t, rfl, by rcases he with he | he <;> simp [he]⟩
    | app e => exact he.elim
  · exact ((ensure_spec _).mono (fun _ _ => trivial) fun _ h => .inl h).bind fun _ _ => trivial

theorem encode_ok_iff {d : Dict Json} {raw : Bytes} :
    encode d = .ok raw ↔
      check 0 (.obj d) = .ok () ∧ canonicalize (ε := CA2AError) (.obj d) = .ok raw ∧ raw.length ≤ maxBytes := by
  rw [encode, catchBuiltin_ok_iff (by simp)]
  simp only [bind_ok_iff, ensure_ok_iff, exists_const, Except.ok.injEq]
  constructor
  · rintro ⟨⟨⟩, hc, raw', hr, hl, rfl⟩
    exact ⟨hc, hr, hl⟩
  · rintro ⟨hc, hr, hl⟩
    exact ⟨(), hc, raw, hr, hl, rfl⟩

theorem decode_spec (raw : Bytes) : Spec (decode raw) (fun d => (Json.obj d).WF) Fails := by
  refine (ensure_spec _).bind fun _ _ => catchBuiltin_spec ?_ fun _ => responseFail_spec _
  refine (objectHook_invariant.loadsUtf8 raw).bind fun value hw => ?_
  cases value with
  | obj d => exact ((encode_spec d).mono (fun _ _ => trivial) fun _ h => .inl h).bind fun _ _ => hw
  | _ => exact .inl rfl

theorem decode_ok_iff {raw : Bytes} {d : Dict Json} :
    decode raw = .ok d ↔
      raw.length ≤ maxBytes ∧ loadsUtf8 objectHook raw = .ok (.obj d) ∧ ∃ b, encode d = .ok b := by
  rw [decode, bind_unit_ok_iff, ensure_ok_iff, catchBuiltin_ok_iff (by simp)]
  refine and_congr_right fun _ => ?_
  rw [bind_ok_iff]
  constructor
  · rintro ⟨value, hv, h⟩
    cases value with
    | obj e =>
      simp only [bind_ok_iff, Except.ok.injEq] at h
      obtain ⟨b, hb, rfl⟩ := h
      exact ⟨hv, b, hb⟩
    | _ => simp at h
  · rintro ⟨hv, b, hb⟩
    refine ⟨_, hv, ?_⟩
    exact bind_ok_iff.mpr ⟨b, hb, rfl⟩

theorem wf_of_decode {raw : Bytes} {d : Dict Json} (h : decode raw = .ok d) : (Json.obj d).WF := (decode_spec raw).of_ok h

theorem hexField_spec (j : Json) : Spec (hexField j) (fun _ => True) Fails := by
  unfold hexField
  split
  · rename_i value
    refine (ensure_spec _).bind fun _ _ => ?_
    have hhex : Spec (catchBuiltin ExcKind.isValueError (fromHex value) fun _ => responseFail) (fun _ => True) Fails := by
      exact catchBuiltin_spec (fromHex_spec (fun _ => .inr ⟨_, _, rfl, rfl⟩) value) fun _ => responseFail_spec _
    exact hhex.bind fun _ _ => (ensure_spec _).bind fun _ _ => trivial
  · exact responseFail_spec _

/-- `_hex` takes the hex text of 32 octets. -/
theorem hexField_ok_iff {j : Json} {raw : Bytes} : hexField j = .ok raw ↔ j = .str (hex raw) ∧ raw.length = 32 := by
  unfold hexField
  split
  · rename_i s
    rw [bind_unit_ok_iff, ensure_ok_iff, bind_ok_iff]
    simp only [caught_ok_iff, fromHex_ok_iff,
      bind_unit_ok_iff, ensure_ok_iff, Except.ok.injEq, Json.str.injEq]
    constructor
    · rintro ⟨_, raw', _, ⟨hl, rfl⟩, rfl⟩
      exact ⟨rfl, hl⟩
    · rintro ⟨rfl, hl⟩
      exact ⟨by rw [hex_length]; omega, raw, fromHex?_hex raw, ⟨hl, rfl⟩, rfl⟩
  · rename_i hj
    simp only [responseFail_ne_ok, false_iff, not_and]
    exact fun h => absurd h (hj _)

/-! ## Reading back what was encoded -/

omit [Interp] in
theorem check_arr_ok_iff {depth : Nat} {xs : List Json} :
    check depth (.arr xs) = .ok () ↔ depth ≤ 64 ∧ ∀ x ∈ xs, check (depth + 1) x = .ok () := by
  rw [check, bind_unit_ok_iff, ensure_ok_iff]
  refine and_congr_right fun _ => ?_
  induction xs with
  | nil => simp [checkItems]
  | cons x xs ih => rw [checkItems, bind_unit_ok_iff, ih, List.forall_mem_cons]

omit [Interp] in
theorem check_obj_ok_iff {depth : Nat} {d : Dict Json} :
    check depth (.obj d) = .ok () ↔ depth ≤ 64 ∧ ∀ kv ∈ d, check (depth + 1) kv.2 = .ok () := by
  rw [check, bind_unit_ok_iff, ensure_ok_iff]
  refine and_congr_right fun _ => ?_
  induction d with
  | nil => simp [checkFields]
  | cons kv d ih => rw [checkFields, bind_unit_ok_iff, ih, List.forall_mem_cons]

omit [Interp] in
theorem check_norm {depth : Nat} {j : Json} : check depth j.norm = .ok () ↔ check depth j = .ok () := by
  induction j generalizing depth with
  | null | bool | int | float | str => exact Iff.rfl
  | arr xs ih =>
    rw [Json.norm_arr, check_arr_ok_iff, check_arr_ok_iff, List.forall_mem_map]
    exact and_congr_right fun _ => forall₂_congr fun x hx => ih x hx
  | obj d ih =>
    rw [Json.norm_obj, check_obj_ok_iff, check_obj_ok_iff]
    refine and_congr_right fun _ => ?_
    simp only [Json.mem_sortKeys, List.forall_mem_map]
    exact forall₂_congr fun kv hkv => ih kv hkv

/-- What `encode` wrote, `decode` reads: the same items in key order, with the same encoding. -/
theorem decode_encode {d : Dict Json} (hw : (Json.obj d).WF) {raw : Bytes} (h : encode d = .ok raw) :
    ∃ d', decode raw = .ok d' ∧ Json.obj d' = (Json.obj d).norm ∧ encode d' = .ok raw := by
  obtain ⟨hc, hr, hl⟩ := encode_ok_iff.mp h
  have hn := Json.norm_obj d
  have henc : encode (Json.sortKeys (d.map fun kv => (kv.1, kv.2.norm))) = .ok raw := by
    rw [encode_ok_iff, ← hn]
    exact ⟨check_norm.mpr hc, canonicalize_norm hr, hl⟩
  refine ⟨_, decode_ok_iff.mpr ⟨hl, ?_, raw, henc⟩, hn.symm, henc⟩
  rw [← hn]
  exact loads_canonicalize objectHook_nodup hw hr

/-- `decode` reads what `json.dumps` wrote for what can be encoded, when it is not too long. -/
theorem decode_dumps {d : Dict Json} (hw : (Json.obj d).WF) {raw data : Bytes} (henc : encode d = .ok raw)
    (hs : utf8? (dumps (.obj d)) = some data) (hl : data.length ≤ maxBytes) : decode data = .ok d := by
  have hcan := (canonicalize_ok_iff.mp (encode_ok_iff.mp henc).2.1).1
  exact decode_ok_iff.mpr
    ⟨hl, loadsUtf8_print dumpsStyle_reads objectHook objectHook_nodup (hcan.printable hw) hs, raw, henc⟩

/-- Two dictionaries with one encoding are equal. -/
theorem same_of_encode {d e : Dict Json} (hd : (Json.obj d).WF) (he : (Json.obj e).WF) {raw : Bytes}
    (h : encode d = .ok raw) (h' : encode e = .ok raw) : (Json.obj d).Same (.obj e) :=
  same_of_canonicalize hd he (encode_ok_iff.mp h).2.1 (encode_ok_iff.mp h').2.1

/-! ## Keys and tags -/

variable [Crypto]

theorem responseKey_ok_iff {privateKey : Crypto.XKey} {publicKey : Json} {requestHash : Str} {key : Bytes} :
    responseKey privateKey publicKey requestHash = .ok key ↔
      ∃ pub shared salt, publicKey = .str (hex pub) ∧ pub.length = 32 ∧ Crypto.exchange privateKey pub = .ok shared ∧
        fromHex? requestHash = some salt ∧ key = Crypto.hkdf (some salt) (asciiBytes "ca2a/response-mac/v1/key") shared := by
  rw [responseKey, bind_ok_iff]
  simp only [caught_ok_iff, bind_ok_iff, hexField_ok_iff,
    exchangeKey_ok_iff, fromHex_ok_iff, Except.ok.injEq]
  constructor
  · rintro ⟨shared, ⟨pub, ⟨hp, hl⟩, hs⟩, salt, hsalt, rfl⟩
    exact ⟨pub, shared, salt, hp, hl, hs, hsalt, rfl⟩
  · rintro ⟨pub, shared, salt, hp, hl, hs, hsalt, rfl⟩
    exact ⟨shared, ⟨pub, ⟨hp, hl⟩, hs⟩, salt, hsalt, rfl⟩

theorem responseKey_spec (privateKey : Crypto.XKey) (publicKey : Json) (request : Bytes) :
    Spec (responseKey privateKey publicKey (Crypto.sha256Hex request)) (fun _ => True) Fails := by
  have hshared : Spec (catchBuiltin ExcKind.isValueError
      (do
        let pub ← hexField publicKey
        exchangeKey privateKey pub)
      fun _ => responseFail) (fun _ => True) Fails := by
    refine catchBuiltin_spec (((hexField_spec publicKey).mono (fun _ h => h) fun _ h => .inl h).bind fun pub _ => ?_)
      fun _ => responseFail_spec _
    exact exchangeKey_spec (fun _ => .inr ⟨_, _, rfl, rfl⟩) privateKey pub
  refine hshared.bind fun shared _ => ?_
  rw [Crypto.sha256Hex, fromHex_ok_iff.mpr (fromHex?_hex _), ok_bind]
  trivial

theorem responseMac_ok_iff {key : Bytes} {statement : Dict Json} {mac : Str} :
    responseMac key statement = .ok mac ↔
      ∃ raw, encode statement = .ok raw ∧ mac = hex (Crypto.hmac key (macMessage raw)) := by
  simp only [responseMac, bind_ok_iff, Except.ok.injEq, eq_comm (a := mac)]

theorem responseMac_spec (key : Bytes) (statement : Dict Json) :
    Spec (responseMac key statement) (fun _ => True) Fails :=
  (encode_spec statement).bind fun _ _ => trivial

/-! ## Both ends -/

/-- What a producer was built from. -/
structure ResponseProducer.Built (producer : ResponseProducer) (privateKey : Crypto.XKey) (request : Bytes) : Prop where
  decoded : decode request = .ok producer.envelope
  encoded : encode producer.envelope = .ok request
  requestSha256 : producer.requestSha256 = Crypto.sha256Hex request
  peer : Dict.get? producer.envelope (lit "peer") = some (.str (hex (Crypto.xPublic privateKey)))
  request : ∃ message, Dict.get? producer.envelope (lit "request") = some (.obj message)
  key : ∃ recipient, Dict.get? producer.envelope (lit "recipient") = some recipient ∧
    responseKey privateKey recipient producer.requestSha256 = .ok producer.key

theorem ResponseProducer.built_of_create {privateKey : Crypto.XKey} {envelope : JsonDict} {producer : ResponseProducer}
    (h : create privateKey envelope = .ok producer) :
    ∃ request, encode envelope.items = .ok request ∧ producer.Built privateKey request := by
  simp only [create, bind_ok_iff, ensure_ok_iff, exists_const, item_ok_iff, Except.ok.injEq] at h
  obtain ⟨frozen, henc, d, hdec, _, _, _, _, peer, hpeer, hpub, request, hreq, hdict, _, _, _, _, raw, hraw, recipient, hrec,
    key, hkey, rfl⟩ := h
  obtain ⟨d', hd', _, henc'⟩ := decode_encode envelope.wf henc
  obtain rfl : d = d' := Except.ok.inj (hdec.symm.trans hd')
  obtain rfl : raw = frozen := Except.ok.inj (hraw.symm.trans henc')
  have hobj : ∃ message, request = .obj message := by
    cases request with
    | obj message => exact ⟨message, rfl⟩
    | _ => simp [isDict] at hdict
  obtain ⟨message, rfl⟩ := hobj
  have hstr : peer = .str (hex (Crypto.xPublic privateKey)) := by
    cases peer <;> simp_all [Json.str?]
  exact ⟨raw, henc, hdec, hraw, rfl, hstr ▸ hpeer, ⟨message, hreq⟩, recipient, hrec, hkey⟩

/-- A producer is built, with a request in its envelope, or `_fail()` is raised. -/
theorem ResponseProducer.create_spec (privateKey : Crypto.XKey) (envelope : JsonDict) :
    Spec (create privateKey envelope) (fun producer => lit "request" ∈ Dict.keys producer.envelope) Fails := by
  refine (encode_spec _).bind fun frozen _ => (decode_spec frozen).bind fun received _ => (ensure_spec _).bind fun _ hf => ?_
  have hmem : ∀ k ∈ requestFields, k ∈ Dict.keys received := fun k hk => List.mem_toFinset.mp (hf ▸ hk)
  refine (item_spec (hmem _ (by decide))).bind fun profile _ => (ensure_spec _).bind fun _ _ => ?_
  refine (item_spec (hmem _ (by decide))).bind fun peer _ => (ensure_spec _).bind fun _ _ => ?_
  refine (item_spec (hmem _ (by decide))).bind fun request _ => (ensure_spec _).bind fun _ _ => ?_
  refine (item_spec (hmem _ (by decide))).bind fun session _ => (hexField_spec session).bind fun _ _ => ?_
  refine (encode_spec received).bind fun raw _ => (item_spec (hmem _ (by decide))).bind fun recipient _ => ?_
  exact (responseKey_spec privateKey recipient raw).bind fun key _ => hmem _ (by decide)

omit [Interp] [Crypto] in
theorem ResponseProducer.wf_statement (producer : ResponseProducer) (status : Int) (body : JsonDict) :
    (Json.obj (producer.statement status body)).WF := by
  have hb := Json.wf_obj.mp body.wf
  simpa [statement, Dict.keys] using hb

theorem ResponseProducer.finish_ok_iff {producer : ResponseProducer} {status : Int} {body : JsonDict}
    {result : Dict Json} :
    producer.finish status body = .ok result ↔
      ∃ raw wire, encode (producer.statement status body) = .ok raw ∧
        result = producer.statement status body ++ [(lit "mac", .str (hex (Crypto.hmac producer.key (macMessage raw))))] ∧
        encode result = .ok wire := by
  simp only [finish, bind_ok_iff, responseMac_ok_iff, Except.ok.injEq]
  constructor
  · rintro ⟨_, ⟨raw, hraw, rfl⟩, wire, hwire, rfl⟩
    exact ⟨raw, wire, hraw, rfl, hwire⟩
  · rintro ⟨raw, wire, hraw, rfl, hwire⟩
    exact ⟨_, ⟨raw, hraw, rfl⟩, wire, hwire, rfl⟩

/-- What is finished has been encoded, or `_fail()` is raised. -/
theorem ResponseProducer.finish_spec (producer : ResponseProducer) (status : Int) (body : JsonDict) :
    Spec (producer.finish status body) (fun result => (Json.obj result).NoFloat) Fails := by
  refine (responseMac_spec _ _).bind fun mac _ => ?_
  dsimp only
  cases h : encode (producer.statement status body ++ [(lit "mac", .str mac)]) with
  | ok raw => exact (canonicalize_ok_iff.mp (encode_ok_iff.mp h).2.1).1.noFloat
  | error e => exact (encode_spec _).of_error h

/-- What a pending response was built from. -/
structure PendingResponse.Fresh (pending : PendingResponse) (peer : VerifiedPeer) (message : JsonDict)
    (ephemeral : Crypto.XKey) (session : Bytes) : Prop where
  encoded : encode (PendingResponse.envelope peer message ephemeral session) = .ok pending.request
  requestSha256 : pending.requestSha256 = Crypto.sha256Hex pending.request
  key : responseKey ephemeral (.str peer.publicKey) pending.requestSha256 = .ok pending.key
  unused : pending.used = false

theorem PendingResponse.fresh_of_create {peer : VerifiedPeer} {message : JsonDict} {timeout : PyFloat}
    {ephemeral : Crypto.XKey} {session : Bytes} {clock : Result PyFloat} {pending : PendingResponse}
    (hp : create peer message timeout ephemeral session clock = .ok pending) :
    pending.Fresh peer message ephemeral session := by
  unfold create at hp
  split at hp
  · cases hp
  · simp only [bind_ok_iff] at hp
    obtain ⟨request, hreq, key, hkey, started, _, hp⟩ := hp
    split at hp
    · cases hp
    · cases hp
      exact ⟨hreq, rfl, hkey, rfl⟩

omit [Interp] in
theorem PendingResponse.wf_envelope (peer : VerifiedPeer) (message : JsonDict) (ephemeral : Crypto.XKey)
    (session : Bytes) : (Json.obj (envelope peer message ephemeral session)).WF := by
  have hm := Json.wf_obj.mp message.wf
  simpa [envelope, Dict.keys] using hm

/-! ## Authentication -/

namespace PendingResponse

/-- The fields of a response with the tag `tag`. -/
structure Received (received : Dict Json) (hash : Str) (code : Int) (content : Dict Json) (tag : Str) : Prop where
  fields : (Dict.keys received).toFinset = responseFields
  profile : Dict.get? received (lit "profile") = some (.str responseProfile)
  requestSha256 : Dict.get? received (lit "request_sha256") = some (.str hash)
  status : Dict.get? received (lit "status") = some (.int code)
  kind : Dict.get? received (lit "kind") = some (.str (responseKind code))
  body : Dict.get? received (lit "body") = some (.obj content)
  mac : Dict.get? received (lit "mac") = some (.str tag)

/-- A status a response may have. -/
def StatusFits (status : Int) : Prop := status = 200 ∨ 400 ≤ status ∧ status ≤ 599

/-- The clock was read in time. -/
def InTime (pending : PendingResponse) (reading : Option PyFloat) : Prop := ∃ now, reading = some now ∧ pending.Within now

omit [Interp] [Crypto] in
theorem checkDeadline_ok_iff {pending : PendingResponse} {reading : Option PyFloat} {u : Unit} :
    pending.checkDeadline reading = .ok u ↔ pending.InTime reading := by
  cases reading <;> simp [checkDeadline, InTime]

omit [Interp] [Crypto] in
theorem checkDeadline_spec (pending : PendingResponse) (reading : Option PyFloat) :
    Spec (pending.checkDeadline reading) (fun _ => pending.InTime reading) Fails := by
  cases reading with
  | none => exact responseFail_spec _
  | some now => exact (ensure_spec _).mono (fun _ h => ⟨now, rfl, h⟩) fun _ h => h

/-- **When a response authenticates**: every check passes. -/
theorem authenticate_ok_iff {pending : PendingResponse} {key : Bytes} {call : VerifyCall} {r : VerifiedResponse} :
    pending.authenticate key call = .ok r ↔
      ∃ received raw status body, pending.InTime call.before ∧ decode call.raw = .ok received ∧
        call.status = .int status ∧ StatusFits status ∧
        encode (Dict.erase received (lit "mac")) = .ok raw ∧ (Crypto.hmac key (macMessage raw)).length = 32 ∧
        Received received pending.requestSha256 status body (hex (Crypto.hmac key (macMessage raw))) ∧
        bodyFits status body = true ∧ pending.InTime call.after ∧
        r = { status, body, requestSha256 := pending.requestSha256, peerAssurance := pending.assurance } := by
  have hget : ∀ (d : Dict Json) (s : String), s ≠ "mac" →
      Dict.get? (Dict.erase d (lit "mac")) (lit s) = Dict.get? d (lit s) := fun d s hs =>
    Dict.get?_erase_other d (by simpa using hs)
  rw [authenticate, catchBuiltin_ok_iff (by simp)]
  simp only [bind_ok_iff, ensure_ok_iff, exists_const, checkDeadline_ok_iff, item_ok_iff, Json.str?_eq_some_iff,
    hexField_ok_iff, hget _ "profile" (by decide), hget _ "request_sha256" (by decide), hget _ "status" (by decide)]
  constructor
  · rintro ⟨hb, received, hd, hf, macj, hmac, tag, ⟨rfl, htag⟩, _, hp, rfl, _, hs, rfl, claimed, hc, h⟩
    split at h
    · rename_i claimed status hst
      simp only [bind_ok_iff, ensure_ok_iff, exists_const, item_ok_iff, Json.str?_eq_some_iff, Json.str.injEq,
        responseMac_ok_iff, hget _ "body" (by decide), hget _ "kind" (by decide)] at h
      obtain ⟨⟨rfl, hfit⟩, _, ⟨raw, hraw, rfl⟩, htageq, body, hbody, _, hk, rfl, h⟩ := h
      obtain rfl := hex_injective htageq
      split at h
      · rename_i body
        simp only [bind_ok_iff, ensure_ok_iff, exists_const, checkDeadline_ok_iff, Except.ok.injEq] at h
        obtain ⟨hfits, ha, rfl⟩ := h
        exact ⟨received, raw, claimed, body, hb, hd, hst, hfit, hraw, htag, ⟨hf, hp, hs, hc, hk, hbody, hmac⟩, hfits, ha, rfl⟩
      · simp at h
    · simp at h
  · rintro ⟨received, raw, status, body, hb, hd, hst, hfit, hraw, htag, hr, hfits, ha, rfl⟩
    refine ⟨hb, received, hd, hr.fields, _, hr.mac, _, ⟨rfl, htag⟩, _, hr.profile, rfl, _, hr.requestSha256, rfl, _,
      hr.status, ?_⟩
    simp only [hst, bind_ok_iff, ensure_ok_iff, exists_const, item_ok_iff, Json.str?_eq_some_iff, Json.str.injEq,
      responseMac_ok_iff, hget _ "body" (by decide), hget _ "kind" (by decide)]
    refine ⟨⟨trivial, hfit⟩, _, ⟨raw, hraw, rfl⟩, rfl, _, hr.body, _, hr.kind, rfl, ?_⟩
    simp only [bind_ok_iff, ensure_ok_iff, exists_const, checkDeadline_ok_iff]
    exact ⟨hfits, ha, trivial⟩

/-- Whatever `verify` raises once it has the key is `_fail()`. -/
theorem authenticate_spec (pending : PendingResponse) (key : Bytes) (call : VerifyCall) :
    Spec (pending.authenticate key call) (fun _ => True) Fails := by
  suffices h : Spec _ (fun _ => True) Fails from
    catchBuiltin_spec (h.mono (fun _ h => h) fun _ h => .inl h) fun _ => responseFail_spec _
  refine (checkDeadline_spec pending _).bind fun _ _ => (decode_spec _).bind fun received _ => ?_
  refine (ensure_spec _).bind fun _ hf => ?_
  have hmem : ∀ k ∈ responseFields, k ∈ Dict.keys received := fun k hk => List.mem_toFinset.mp (hf ▸ hk)
  have hmem' : ∀ k ∈ responseFields, k ≠ lit "mac" → k ∈ Dict.keys (Dict.erase received (lit "mac")) := by
    intro k hk hne
    rw [← Dict.has_iff_mem_keys, Dict.has, Dict.get?_erase_other _ hne, ← Dict.has, Dict.has_iff_mem_keys]
    exact hmem k hk
  refine (item_spec (hmem _ (by decide))).bind fun mac _ => (hexField_spec mac).bind fun _ _ => ?_
  refine (item_spec (hmem' _ (by decide) (by decide))).bind fun profile _ => (ensure_spec _).bind fun _ _ => ?_
  refine (item_spec (hmem' _ (by decide) (by decide))).bind fun hash _ => (ensure_spec _).bind fun _ _ => ?_
  refine (item_spec (hmem' _ (by decide) (by decide))).bind fun claimed _ => ?_
  split
  · refine (ensure_spec _).bind fun _ _ => (responseMac_spec key _).bind fun _ _ => (ensure_spec _).bind fun _ _ => ?_
    refine (item_spec (hmem' _ (by decide) (by decide))).bind fun body _ => ?_
    refine (item_spec (hmem' _ (by decide) (by decide))).bind fun kind _ => (ensure_spec _).bind fun _ _ => ?_
    split
    · exact (ensure_spec _).bind fun _ _ => (checkDeadline_spec pending _).bind fun _ _ => trivial
    · exact responseFail_spec _
  · exact responseFail_spec _

/-- The state every call leaves. -/
def spent (pending : PendingResponse) : PendingResponse := { pending with key := [], used := true }

/-- What `verify` does: a used response is refused, an unused one is spent before it is looked at. -/
theorem verify_eq (pending : PendingResponse) (call : VerifyCall) :
    pending.verify call =
      if pending.used = true then (responseFail, pending) else (pending.authenticate pending.key call, pending.spent) := by
  simp only [verify, verifySection, Section.run, id]
  split <;> rfl

end PendingResponse

end

end Ca2a
