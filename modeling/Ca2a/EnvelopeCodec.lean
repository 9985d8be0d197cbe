/-
The codec of the authenticated envelopes: `encode` is defined on the
objects of the integer-only subset of JSON that are neither nested too deep
nor too long, `decode` takes the UTF-8 JSON texts of exactly these, in
which no key stands twice, and each undoes the other. So the digest of a
request does not depend on how its envelope was spelled.
-/
import Ca2a.ResponseExchange

namespace Py.Json

mutual
/-- How many containers the innermost parts of a value stand in. -/
def height : Json → Nat
  | .arr xs => heightItems xs
  | .obj d => heightFields d
  | .null | .bool _ | .int _ | .float _ | .str _ => 0

def heightItems : List Json → Nat
  | [] => 0
  | x :: xs => max (height x + 1) (heightItems xs)

def heightFields : List (Str × Json) → Nat
  | [] => 0
  | (_, v) :: d => max (height v + 1) (heightFields d)
end

theorem height_arr_le {xs : List Json} {n : Nat} : height (.arr xs) ≤ n ↔ ∀ x ∈ xs, height x + 1 ≤ n := by
  rw [height]
  induction xs with
  | nil => simp [heightItems]
  | cons x xs ih => rw [heightItems, max_le_iff, ih, List.forall_mem_cons]

theorem height_obj_le {d : List (Str × Json)} {n : Nat} : height (.obj d) ≤ n ↔ ∀ kv ∈ d, height kv.2 + 1 ≤ n := by
  rw [height]
  induction d with
  | nil => simp [heightFields]
  | cons kv d ih => rw [heightFields, max_le_iff, ih, List.forall_mem_cons]

end Py.Json

namespace Ca2a

open Py

/-! ## What can be encoded -/

theorem le_of_check {depth : Nat} {j : Json} (h : check depth j = .ok ()) : depth ≤ 64 := by
  cases j with
  | null | bool | int | float | str => exact ensure_ok_iff.mp h
  | arr xs => exact (check_arr_ok_iff.mp h).1
  | obj d => exact (check_obj_ok_iff.mp h).1

/-- The check of the depth passes exactly when the innermost parts stand at level 64 at most. -/
theorem check_ok_iff {depth : Nat} {j : Json} (hdepth : depth ≤ 64) :
    check depth j = .ok () ↔ depth + j.height ≤ 64 := by
  induction j generalizing depth with
  | null | bool | int | float | str => simp [check, Json.height, hdepth]
  | arr xs ih =>
    have hle : depth + (Json.arr xs).height ≤ 64 ↔ ∀ x ∈ xs, x.height + 1 ≤ 64 - depth := by
      rw [← Json.height_arr_le]
      omega
    rw [check_arr_ok_iff, hle, and_iff_right hdepth]
    refine forall₂_congr fun x hx => ?_
    by_cases hlt : depth + 1 ≤ 64
    · rw [ih x hx hlt]
      omega
    · exact iff_of_false (fun h => hlt (le_of_check h)) (by omega)
  | obj d ih =>
    have hle : depth + (Json.obj d).height ≤ 64 ↔ ∀ kv ∈ d, kv.2.height + 1 ≤ 64 - depth := by
      rw [← Json.height_obj_le]
      omega
    rw [check_obj_ok_iff, hle, and_iff_right hdepth]
    refine forall₂_congr fun kv hkv => ?_
    by_cases hlt : depth + 1 ≤ 64
    · rw [ih kv hkv hlt]
      omega
    · exact iff_of_false (fun h => hlt (le_of_check h)) (by omega)

section
variable [Interp]

/-- An object of the integer-only subset, nested at most 64 deep, whose canonical encoding is at most 1 MiB long. -/
structure Encodable (d : Dict Json) : Prop where
  canonical : Canonical (.obj d)
  nested : (Json.obj d).height ≤ 64
  short : ∀ raw, canonicalize (ε := CA2AError) (.obj d) = .ok raw → raw.length ≤ maxBytes

theorem exists_encode_iff {d : Dict Json} : (∃ raw, encode d = .ok raw) ↔ Encodable d := by
  simp only [encode_ok_iff, check_ok_iff (Nat.zero_le 64), Nat.zero_add]
  constructor
  · intro h
    obtain ⟨raw, hnested, hraw, hlength⟩ := h
    exact ⟨(canonicalize_ok_iff.mp hraw).1, hnested, fun raw' hraw' => Except.ok.inj (hraw.symm.trans hraw') ▸ hlength⟩
  · intro h
    obtain ⟨raw, hraw⟩ := exists_canonicalize_iff.mpr h.canonical
    exact ⟨raw, h.nested, hraw, h.short raw hraw⟩

/-- Equal objects have one encoding. -/
theorem encode_of_same {d e : Dict Json} (hd : (Json.obj d).WF) (he : (Json.obj e).WF) {raw : Bytes}
    (h : encode d = .ok raw) (hs : (Json.obj d).Same (.obj e)) : encode e = .ok raw := by
  obtain ⟨hcheck, hraw, hlength⟩ := encode_ok_iff.mp h
  have hnorm := Json.norm_eq_of_same hd he (canonicalize_ok_iff.mp hraw).1.clean hs
  refine encode_ok_iff.mpr ⟨?_, canonicalize_of_same hd he hraw hs, hlength⟩
  rw [← check_norm, ← hnorm, check_norm]
  exact hcheck

/-- What was encoded is read back. -/
theorem exists_decode_encode {d : Dict Json} (hd : (Json.obj d).WF) (h : Encodable d) :
    ∃ raw w, encode d = .ok raw ∧ decode raw = .ok w ∧ (Json.obj d).Same (.obj w) := by
  obtain ⟨raw, hraw⟩ := exists_encode_iff.mpr h
  obtain ⟨w, hw, hnorm, _⟩ := decode_encode hd hraw
  exact ⟨raw, w, hraw, hw, hnorm ▸ Json.same_norm hd⟩

/-! ## What is decoded -/

/-- The octets are UTF-8 JSON for the object, in which no key stands twice at any level. The items are taken as they stand
in the text. -/
structure Spells (raw : Bytes) (d : Dict Json) : Prop where
  text : ∃ s, utf8? s = some raw ∧ loads (ε := CA2AError) pairsHook s = .ok (.obj d)
  nodup : (Json.obj d).WF

omit [Interp] in
theorem objectHook_le_pairsHook : HookLe objectHook pairsHook fun _ => True where
  arr _ _ _ _ := trivial
  hook pairs j _ h := ⟨by rw [((objectHook_spec pairs).of_ok h).1, pairsHook], fun _ _ => trivial⟩

omit [Interp] in
theorem pairsHook_le_objectHook : HookLe pairsHook objectHook Json.WF where
  arr _ h := Json.wf_arr.mp h
  hook pairs j hj h := by
    obtain rfl : Json.obj pairs = j := Except.ok.inj h
    have hwf := Json.wf_obj.mp hj
    exact ⟨objectHook_nodup pairs hwf.1, hwf.2⟩

/-- The decoder with the hook against repeated keys delivers what the text says, when it repeats none. -/
theorem spells_iff {raw : Bytes} {d : Dict Json} : loadsUtf8 objectHook raw = .ok (.obj d) ↔ Spells raw d := by
  rw [loadsUtf8_ok_iff]
  constructor
  · intro h
    obtain ⟨s, hs, hload⟩ := h
    exact ⟨⟨s, hs, objectHook_le_pairsHook.loads trivial hload⟩, (objectHook_invariant.loads s).of_ok hload⟩
  · intro h
    obtain ⟨s, hs, hload⟩ := h.text
    exact ⟨s, hs, pairsHook_le_objectHook.loads h.nodup hload⟩

/-- **What `decode` accepts**: a spelling, of at most 1 MiB, of what can be encoded. -/
theorem decode_iff_spells {raw : Bytes} {d : Dict Json} :
    decode raw = .ok d ↔ raw.length ≤ maxBytes ∧ Spells raw d ∧ Encodable d := by
  rw [decode_ok_iff, spells_iff, exists_encode_iff]

/-! ## The codec -/

variable [Crypto]

/-- Equal envelopes make one producer. -/
theorem ResponseProducer.create_of_same {d e : JsonDict} (hd : Encodable d.items)
    (hs : (Json.obj d.items).Same (.obj e.items)) (privateKey : Crypto.XKey) : create privateKey d = create privateKey e := by
  obtain ⟨raw, hraw⟩ := exists_encode_iff.mpr hd
  rw [create, create, hraw, encode_of_same d.wf e.wf hraw hs]

/-- The producer and the pending response digest the same octets. -/
theorem PendingResponse.requestSha256_of_same {pending : PendingResponse} {peer : VerifiedPeer} {message : JsonDict}
    {ephemeral : Crypto.XKey} {session : Bytes} (hpending : pending.Fresh peer message ephemeral session) {d : JsonDict}
    (hs : (Json.obj (envelope peer message ephemeral session)).Same (.obj d.items)) {privateKey : Crypto.XKey}
    {producer : ResponseProducer} (hproducer : ResponseProducer.create privateKey d = .ok producer) :
    producer.requestSha256 = pending.requestSha256 := by
  obtain ⟨raw, hraw, hbuilt⟩ := ResponseProducer.built_of_create hproducer
  have henc := encode_of_same (wf_envelope peer message ephemeral session) d.wf hpending.encoded hs
  obtain rfl : raw = pending.request := Except.ok.inj (hraw.symm.trans henc)
  rw [hbuilt.requestSha256, hpending.requestSha256]

/-- **The codec of the envelopes.** What can be encoded comes back; what is not read raises `_fail()`, what is read is
spelled by the octets and can be encoded again; and whatever spells the envelope of a pending response makes a producer
that digests the same request. -/
theorem envelope_codec :
    (∀ v : JsonDict, Encodable v.items →
      ∃ raw w, encode v.items = .ok raw ∧ decode raw = .ok w ∧ (Json.obj v.items).Same (.obj w)) ∧
    (∀ raw : Bytes, Spec (decode raw) (fun v => Spells raw v ∧ Encodable v ∧
      ∃ raw' w, encode v = .ok raw' ∧ decode raw' = .ok w ∧ (Json.obj v).Same (.obj w)) Fails) ∧
    (∀ (raw raw' : Bytes) (v v' : JsonDict), decode raw = .ok v.items → decode raw' = .ok v'.items →
      (Json.obj v.items).Same (.obj v'.items) →
      ∀ privateKey, ResponseProducer.create privateKey v = ResponseProducer.create privateKey v') ∧
    ∀ (peer : VerifiedPeer) (message : JsonDict) (timeout : PyFloat) (ephemeral : Crypto.XKey) (session : Bytes)
      (clock : Result PyFloat) (pending : PendingResponse) (raw : Bytes) (v : JsonDict) (privateKey : Crypto.XKey)
      (producer : ResponseProducer), PendingResponse.create peer message timeout ephemeral session clock = .ok pending →
      decode raw = .ok v.items →
      (Json.obj (PendingResponse.envelope peer message ephemeral session)).Same (.obj v.items) →
      ResponseProducer.create privateKey v = .ok producer → producer.requestSha256 = pending.requestSha256 := by
  refine ⟨fun v hv => exists_decode_encode v.wf hv, fun raw => ?_, fun raw raw' v v' hv _ hs privateKey => ?_,
    fun peer message timeout ephemeral session clock pending raw v privateKey producer hpending _ hs hproducer => ?_⟩
  · cases h : decode raw with
    | ok v =>
      obtain ⟨_, hspells, hencodable⟩ := decode_iff_spells.mp h
      exact ⟨hspells, hencodable, exists_decode_encode hspells.nodup hencodable⟩
    | error e => exact (decode_spec raw).of_error h
  · exact ResponseProducer.create_of_same (decode_iff_spells.mp hv).2.2 hs privateKey
  · exact PendingResponse.requestSha256_of_same (PendingResponse.fresh_of_create hpending) hs hproducer

end

/-- An object out of key order, with a list in it. -/
def nestedObject : JsonDict where
  items := [(lit "b", .arr [.bool true, .int (-1)]), (lit "a", .str (lit "x"))]
  wf := by simp [Json.WF, Json.All, Json.AllFields, Json.AllItems, Dict.keys, lit]

theorem nestedObject_encodes : (@encode Interp.ascii nestedObject.items).isOk = true := by
  decide +kernel

theorem envelope_codec_nestedObject :
    let _ := Interp.ascii
    ∃ raw w, encode nestedObject.items = .ok raw ∧ decode raw = .ok w ∧ (Json.obj nestedObject.items).Same (.obj w) := by
  intro _
  let _ := Crypto.toy
  exact envelope_codec.1 nestedObject (exists_encode_iff.mp (exists_of_isOk nestedObject_encodes))

end Ca2a
