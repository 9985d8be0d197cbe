/-
What `emit_dag` writes, `verify_trace_dag` accepts.

`Emits` describes the records of a list of hops. They are a chain of hashes, so
no hash occurs twice even when the hops are all alike
(`HashChain.Rooted.nodup`), and with that each record passes its turn.
-/
import Ca2a.AdapterRoundTrip
import Ca2a.TraceFacts

namespace Ca2a

open Py

/-! ## Keys -/

theorem base64Val?_b64Char {n : Nat} (h : n < 64) :
    base64Val? (urlsafeTranslate (b64Char n)) = some n ∧ urlsafeTranslate (b64Char n) ≠ cp '=' := by
  have hall : ∀ n : Fin 64, base64Val? (urlsafeTranslate (b64Char n)) = some n.val ∧
      urlsafeTranslate (b64Char n) ≠ cp '=' := by decide +kernel
  exact hall ⟨n, h⟩

/-- A digit is read into the group it belongs to. -/
theorem a2bBase64?_digit {n : Nat} (h : n < 64) (quad pads left : Nat) (rest : Str) :
    a2bBase64? quad pads left (urlsafeTranslate (b64Char n) :: rest) =
      match quad with
      | 0 => a2bBase64? 1 0 n rest
      | 1 => (a2bBase64? 2 0 (n % 16) rest).map (UInt8.ofNat (left * 4 + n / 16) :: ·)
      | 2 => (a2bBase64? 3 0 (n % 4) rest).map (UInt8.ofNat (left * 16 + n / 4) :: ·)
      | _ => (a2bBase64? 0 0 0 rest).map (UInt8.ofNat (left * 64 + n) :: ·) := by
  obtain ⟨hval, hpad⟩ := base64Val?_b64Char h
  rcases quad with _ | _ | _ | quad <;> simp [a2bBase64?, hpad, hval]

/-- The padding of so many digits. -/
def padding (digits : Nat) : Str := List.replicate ((4 - digits % 4) % 4) (cp '=')

/-- The lenient decoder reads back what the encoder writes, padded. -/
theorem a2bBase64?_b64Digits (value : Bytes) :
    a2bBase64? 0 0 0 ((b64Digits value).map (urlsafeTranslate ∘ b64Char) ++ padding (b64Digits value).length) =
      some value := by
  induction value using b64Digits.induct with
  | case1 => rfl
  | case2 a =>
    have ha := a.toNat_lt
    have hend : ∀ left, a2bBase64? 2 0 left [cp '=', cp '='] = some [] := fun _ => rfl
    simp only [b64Digits, List.map_cons, List.map_nil, Function.comp, List.cons_append, List.nil_append]
    rw [a2bBase64?_digit (by omega), a2bBase64?_digit (by omega)]
    simp only [octet_of_one]
    exact congrArg _ (hend _)
  | case3 a b =>
    have ha := a.toNat_lt
    have hb := b.toNat_lt
    have hend : ∀ left, a2bBase64? 3 0 left [cp '='] = some [] := fun _ => rfl
    simp only [b64Digits, List.map_cons, List.map_nil, Function.comp, List.cons_append, List.nil_append]
    rw [a2bBase64?_digit (by omega), a2bBase64?_digit (by omega)]
    simp only [a2bBase64?_digit (show b.toNat % 16 * 4 < 64 by omega), octet_first, octet_of_two]
    exact congrArg (Option.map _ ∘ Option.map _) (hend _)
  | case4 a b c rest ih =>
    have ha := a.toNat_lt
    have hb := b.toNat_lt
    have hc := c.toNat_lt
    have hpad : padding (b64Digits (a :: b :: c :: rest)).length = padding (b64Digits rest).length := by
      simp only [b64Digits, List.length_cons, padding]
      congr 1
      omega
    rw [hpad]
    simp only [b64Digits, List.map_cons, Function.comp, List.cons_append]
    rw [a2bBase64?_digit (by omega), a2bBase64?_digit (by omega)]
    simp only [a2bBase64?_digit (show b.toNat % 16 * 4 + c.toNat / 64 < 64 by omega),
      a2bBase64?_digit (show c.toNat % 64 < 64 by omega), octet_first, octet_second, octet_third]
    rw [ih]
    rfl

section
variable [Interp]

/-- A key that was encoded is decoded. -/
theorem b64urlDecodePadded_b64urlEncode (value : Bytes) : b64urlDecodePadded (b64urlEncode value) = .ok value := by
  have hdigit : ∀ n : Fin 64, (b64Char n).val < 0x80 := by decide +kernel
  have hpadded : b64urlEncode value ++ List.replicate ((4 - (b64urlEncode value).length % 4) % 4) (cp '=') =
      (b64Digits value).map b64Char ++ padding (b64Digits value).length := by
    rw [b64urlEncode, List.length_map, padding]
  have hascii : ((b64Digits value).map b64Char ++ padding (b64Digits value).length).all (fun c => c.val < 0x80) = true := by
    refine List.all_eq_true.mpr fun c hc => ?_
    rcases List.mem_append.mp hc with hc | hc
    · obtain ⟨n, hn, rfl⟩ := List.mem_map.mp hc
      exact decide_eq_true (hdigit ⟨n, b64Digits_lt value n hn⟩)
    · rw [List.eq_of_mem_replicate hc]
      decide
  have hmap : ((b64Digits value).map b64Char ++ padding (b64Digits value).length).map urlsafeTranslate =
      (b64Digits value).map (urlsafeTranslate ∘ b64Char) ++ padding (b64Digits value).length := by
    rw [List.map_append, List.map_map, padding, List.map_replicate]
    rfl
  rw [b64urlDecodePadded, hpadded, urlsafeB64decode, if_pos hascii, hmap, a2bBase64?_b64Digits]

/-- The JWK of a raw key. -/
structure IsJwk (raw : Bytes) (jwk : Dict Json) : Prop where
  kty : Dict.get? jwk (lit "kty") = some (.str (lit "OKP"))
  crv : Dict.get? jwk (lit "crv") = some (.str (lit "Ed25519"))
  x : Dict.get? jwk (lit "x") = some (.str (b64urlEncode raw))

theorem jwkRaw_of_isJwk {raw : Bytes} {jwk : Dict Json} (h : IsJwk raw jwk) : jwkRaw (.obj jwk) = .ok raw := by
  simp only [jwkRaw, getDefault, h.kty, h.crv, h.x, Option.getD_some, ok_bind, Json.str?, ne_eq, not_true_eq_false,
    or_self, if_false, b64urlDecodePadded_b64urlEncode, catchBuiltin]

end

/-! ## The records of a list of hops -/

section
variable [Crypto]

/-- The record of a hop, at the root or after the record with the hash `parentHash`. -/
def HopSpec.record (hop : HopSpec) : (parentHash : Option Str) → Dict Json
  | none => baseRecord hop.subject hop.iat hop.context
  | some parent =>
    baseRecord hop.subject hop.iat hop.context ++ [(lit "delegation", delegationBlock parent hop.credentialId)]

theorem HopSpec.get?_delegation (hop : HopSpec) (parentHash : Option Str) :
    Dict.get? (hop.record parentHash) (lit "delegation") = parentHash.map fun p => delegationBlock p hop.credentialId := by
  cases parentHash <;> simp [HopSpec.record, baseRecord, Dict.get?_cons]

theorem HopSpec.get?_subject (hop : HopSpec) (parentHash : Option Str) :
    Dict.get? (hop.record parentHash) (lit "subject") = some (.str hop.subject) := by
  cases parentHash <;> simp [HopSpec.record, baseRecord, Dict.get?_cons]

variable [TraceLib]

/-- The library signs the record with the key and accepts what it signed: the key is under `cnf` and everything else but the
signature is as it was. -/
structure TraceLib.Signs (record : Dict Json) (key : Crypto.EdKey) (signed : Dict Json) : Prop where
  signed_eq : TraceLib.signRecord record key = .ok signed
  kept : ∀ k, k ≠ lit "cnf" → k ≠ lit "signature" → Dict.get? signed k = Dict.get? record k
  schema : TraceLib.validateJson (Dict.erase signed (lit "delegation")) = .ok ()
  key : ∃ cnf jwk, Dict.get? signed (lit "cnf") = some (.obj cnf) ∧ Dict.get? cnf (lit "jwk") = some (.obj jwk) ∧
    IsJwk (Crypto.edPublic key) jwk ∧ ∀ now, TraceLib.verifyRecord signed (.obj jwk) none now = .ok ()
  canonical : ∃ b, TraceLib.dumps (.obj signed) = .ok b

/-- The library signs the record of the hop at whatever place. -/
def HopSpec.Signable (hop : HopSpec) : Prop :=
  ∀ parentHash, (∀ p ∈ parentHash, isTraceDigest p = true) →
    ∃ signed, TraceLib.Signs (hop.record parentHash) hop.signingKey signed

/-- The records of the hops, the first of them after the record with the hash `parentHash`. -/
inductive Emits : (parentHash : Option Str) → List HopSpec → List (Dict Json) → Prop
  | nil {parentHash : Option Str} : Emits parentHash [] []
  | cons {parentHash : Option Str} {hop : HopSpec} {hops : List HopSpec} {signed : Dict Json} {hash : Str}
      {records : List (Dict Json)} : TraceLib.Signs (hop.record parentHash) hop.signingKey signed →
      traceRecordHash signed = .ok hash → Emits (some hash) hops records → Emits parentHash (hop :: hops) (signed :: records)

theorem Emits.length_eq {parentHash : Option Str} {hops : List HopSpec} {records : List (Dict Json)}
    (h : Emits parentHash hops records) : records.length = hops.length := by
  induction h with
  | nil => rfl
  | cons _ _ _ ih => rw [List.length_cons, List.length_cons, ih]

theorem Emits.hashed {parentHash : Option Str} {hops : List HopSpec} {records : List (Dict Json)}
    (h : Emits parentHash hops records) {record : Dict Json} (hr : record ∈ records) :
    ∃ hash, traceRecordHash record = .ok hash := by
  induction h with
  | nil => cases hr
  | @cons parentHash hop hops signed hash records hsigned hhash _ ih =>
    rcases List.mem_cons.mp hr with rfl | hr
    · exact ⟨hash, hhash⟩
    · exact ih hr

/-- A record hash has the form of a digest. -/
theorem isTraceDigest_of_hash (hsize : ∀ b, (Crypto.sha256 b).length = 32) {record : Dict Json} {hash : Str}
    (h : traceRecordHash record = .ok hash) :
    isTraceDigest hash = true ∧ (linkDigest ++ lit ":").isPrefixOf hash = true := by
  rw [traceRecordHash, bind_ok_iff] at h
  obtain ⟨b, _, h⟩ := h
  cases h
  have hlabel : linkDigest ++ lit ":" = lit "sha256:" := rfl
  have hnewline : (lit "sha256:" ++ Crypto.sha256Hex b).getLast? ≠ some (cp '\n') := by
    intro h
    rcases List.mem_append.mp (List.mem_of_getLast? h) with h | h
    · exact absurd h (by decide)
    · exact not_mem_hex (by decide) _ h
  have hhex : isLowerHex 64 (Crypto.sha256Hex b) = true := isLowerHex_hex (by rw [hsize])
  have hlabeled : (lit "sha256:").isPrefixOf (lit "sha256:" ++ Crypto.sha256Hex b) = true :=
    List.isPrefixOf_iff_prefix.mpr (List.prefix_append _ _)
  have hdrop : (lit "sha256:" ++ Crypto.sha256Hex b).drop 7 = Crypto.sha256Hex b :=
    List.drop_left' (show (lit "sha256:").length = 7 from rfl)
  rw [hlabel]
  refine ⟨?_, hlabeled⟩
  simp only [isTraceDigest, if_neg hnewline, hlabeled, hdrop, hhex, Bool.and_self, Bool.true_or]

/-- **`emit_dag` returns**, and what. -/
theorem exists_emits (hsize : ∀ b, (Crypto.sha256 b).length = 32) {hops : List HopSpec}
    (hs : ∀ hop ∈ hops, hop.Signable) {i : Nat} {parentHash : Option Str} (hi : i = 0 ↔ parentHash = none)
    (hp : ∀ p ∈ parentHash, isTraceDigest p = true) :
    ∃ records, emitHops i parentHash hops = .ok records ∧ Emits parentHash hops records := by
  induction hops generalizing i parentHash with
  | nil => exact ⟨[], rfl, .nil⟩
  | cons hop hops ih =>
    obtain ⟨signed, hsigned⟩ := hs hop (by simp) parentHash hp
    obtain ⟨b, hb⟩ := hsigned.canonical
    have hhash : traceRecordHash signed = .ok (linkDigest ++ lit ":" ++ Crypto.sha256Hex b) := by
      rw [traceRecordHash, hb]
      rfl
    obtain ⟨records, hrecords, hemits⟩ := ih (fun h hh => hs h (by simp [hh])) (i := i + 1) (by simp)
      (fun p hp => Option.mem_some.mp hp ▸ (isTraceDigest_of_hash hsize hhash).1)
    have hbuild : buildTraceRecord hop.subject hop.iat hop.context (if i = 0 then none else some hop.credentialId)
        parentHash = .ok (hop.record parentHash) := by
      cases parentHash with
      | none => simp [buildTraceRecord, hi.mpr rfl, HopSpec.record]
      | some p =>
        have hne : i ≠ 0 := fun h0 => by simpa using hi.mp h0
        simp [buildTraceRecord, hne, HopSpec.record]
    refine ⟨signed :: records, ?_, .cons hsigned hhash hemits⟩
    simp only [emitHops, hbuild, ok_bind, hsigned.signed_eq, hhash, hrecords]

theorem Emits.delegationOf {parentHash : Option Str} {hop : HopSpec} {signed : Dict Json}
    (h : TraceLib.Signs (hop.record parentHash) hop.signingKey signed) :
    delegationOf signed = (parentHash.map fun p => delegationBlock p hop.credentialId).getD .null := by
  rw [Ca2a.delegationOf, h.kept _ (by simp) (by simp), hop.get?_delegation]

variable [Interp]

/-- The link of an emitted record. -/
theorem Emits.linkedTo {i : Nat} {parentHash : Option Str} (hi : i = 0 ↔ parentHash = none)
    (hp : ∀ p ∈ parentHash, (linkDigest ++ lit ":").isPrefixOf p = true) {hop : HopSpec} {signed : Dict Json}
    (h : TraceLib.Signs (hop.record parentHash) hop.signingKey signed) : LinkedTo i parentHash (Ca2a.delegationOf signed) := by
  rw [Emits.delegationOf h]
  cases parentHash with
  | none =>
    rw [hi.mpr rfl]
    rfl
  | some p =>
    cases i with
    | zero => simp at hi
    | succ i => exact ⟨p, subscript_obj_ok_iff.mpr (by simp [Dict.get?_cons]), hp p rfl, rfl⟩

/-- **Emitted records are a chain of hashes.** -/
theorem Emits.rooted (hsize : ∀ b, (Crypto.sha256 b).length = 32) {parentHash : Option Str} {hops : List HopSpec}
    {records : List (Dict Json)} (h : Emits parentHash hops records) {i : Nat} (hi : i = 0 ↔ parentHash = none)
    (hp : ∀ p ∈ parentHash, (linkDigest ++ lit ":").isPrefixOf p = true) {before : List Json}
    (hb : Before i parentHash before) (hne : records ≠ []) :
    HashChain.Rooted hashOf linkOf ((records.map Json.obj).reverse ++ before) := by
  induction h generalizing i before with
  | nil => exact absurd rfl hne
  | @cons parentHash hop hops signed hash records hsigned hhash _ ih =>
    have hrooted := rooted_of_linked hb (Emits.linkedTo hi hp hsigned)
    rw [List.map_cons, List.reverse_cons, List.append_assoc, List.singleton_append]
    by_cases hlast : records = []
    · rw [hlast]
      exact hrooted
    · exact ih (i := i + 1) (by simp) (fun p hp => Option.mem_some.mp hp ▸ (isTraceDigest_of_hash hsize hhash).2)
        ⟨.obj signed, before, rfl, hashOf_obj hhash, hrooted⟩ hlast

theorem recordJwk_of_signs {record : Dict Json} {key : Crypto.EdKey} {signed : Dict Json}
    (h : TraceLib.Signs record key signed) :
    ∃ jwk, recordJwk (.obj signed) = .ok jwk ∧ jwkRaw jwk = .ok (Crypto.edPublic key) ∧
      ∀ now, TraceLib.verifyRecord signed jwk none now = .ok () := by
  obtain ⟨cnf, jwk, hcnf, hjwk, his, hverify⟩ := h.key
  refine ⟨.obj jwk, ?_, jwkRaw_of_isJwk his, hverify⟩
  simp only [recordJwk, getDefault, hcnf, Option.getD_some, ok_bind, hjwk]

/-- **Emitted records verify**, as long as no hash occurs twice. -/
theorem Emits.verifies (hsize : ∀ b, (Crypto.sha256 b).length = 32) {parentHash : Option Str} {hops : List HopSpec}
    {records : List (Dict Json)} (h : Emits parentHash hops records) {i : Nat} (hi : i = 0 ↔ parentHash = none)
    (hp : ∀ p ∈ parentHash, isTraceDigest p = true ∧ (linkDigest ++ lit ":").isPrefixOf p = true)
    (hid : ∀ hop ∈ (if i = 0 then hops.tail else hops), hop.credentialId ≠ []) {trusted : Finset Bytes}
    (ht : ∀ hop ∈ hops, Crypto.edPublic hop.signingKey ∈ trusted) {seen : Finset Str}
    (hnodup : ((records.map Json.obj).map hashOf).Nodup)
    (hseen : ∀ hash ∈ seen, some hash ∉ (records.map Json.obj).map hashOf) (clock : Nat → Int) :
    verifyRecords trusted none clock i parentHash seen (records.map Json.obj) = .ok (hops.map fun hop => .str hop.subject) := by
  induction h generalizing i seen with
  | nil => rfl
  | @cons parentHash hop hops signed hash records hsigned hhash _ ih =>
    rw [List.map_cons, List.map_cons, List.nodup_cons, hashOf_obj hhash] at hnodup
    obtain ⟨jwk, hjwk, hraw, hverify⟩ := recordJwk_of_signs hsigned
    have hdigest := isTraceDigest_of_hash hsize hhash
    have haccepted : RecordAccepted trusted none (clock i) i parentHash seen signed hash (.str hop.subject) :=
      { schema := hsigned.schema
        block := by
          rw [Emits.delegationOf hsigned]
          cases parentHash with
          | none => exact .inl rfl
          | some p =>
            have hne : i ≠ 0 := fun h0 => by simpa using hi.mp h0
            rw [if_neg hne] at hid
            refine .inr ⟨p, hop.credentialId, ⟨_, rfl, ?_, ?_, ?_⟩, (hp p rfl).1, hid hop (by simp)⟩
            all_goals simp [Dict.keys, Dict.get?_cons]
        key := ⟨jwk, _, hjwk, hraw, ht hop (by simp), hverify _⟩
        hashed := hhash
        unseen := fun hmem => hseen hash hmem (by simp [hashOf_obj hhash])
        linked := Emits.linkedTo hi (fun p hm => (hp p hm).2) hsigned
        subject_eq := by rw [hsigned.kept _ (by simp) (by simp), hop.get?_subject] }
    have hid' : ∀ hop ∈ (if i + 1 = 0 then hops.tail else hops), hop.credentialId ≠ [] := by
      intro h hh
      rw [if_neg (by omega)] at hh
      refine hid h ?_
      split
      · exact hh
      · exact List.mem_cons_of_mem _ hh
    have hseen' : ∀ hash' ∈ insert hash seen, some hash' ∉ (records.map Json.obj).map hashOf := by
      intro hash' hmem
      rcases Finset.mem_insert.mp hmem with rfl | hmem
      · exact hnodup.1
      · intro h
        exact hseen hash' hmem (List.mem_cons_of_mem _ h)
    have hrest := ih (by simp) (fun p hm => Option.mem_some.mp hm ▸ hdigest) hid' (fun h hh => ht h (by simp [hh]))
      hnodup.2 hseen'
    rw [List.map_cons, verifyRecords, checkRecord_ok_iff.mpr ⟨signed, rfl, haccepted⟩, ok_bind]
    simp only [hrest, ok_bind, List.map_cons]

omit [Interp] in
/-- An emitted record at its place. -/
theorem Emits.getElem {parentHash : Option Str} {hops : List HopSpec} {records : List (Dict Json)}
    (h : Emits parentHash hops records) {j : Nat} (hj : j < records.length) (hj' : j < hops.length) :
    ∃ parent, TraceLib.Signs (hops[j].record parent) hops[j].signingKey records[j] ∧
      (0 < j ∨ parentHash ≠ none → parent ≠ none) := by
  induction h generalizing j with
  | nil => cases hj
  | @cons parentHash hop hops signed hash records hsigned hhash _ ih =>
    cases j with
    | zero => exact ⟨parentHash, hsigned, by simp⟩
    | succ j =>
      obtain ⟨parent, hparent, hne⟩ := ih (by simpa using hj) (by simpa using hj')
      exact ⟨parent, hparent, fun _ => hne (.inr (by simp))⟩

/-- **No emitted record repeats**, however alike the hops are. -/
theorem Emits.nodup (hsize : ∀ b, (Crypto.sha256 b).length = 32) {hops : List HopSpec} {records : List (Dict Json)}
    (h : Emits none hops records) (hcf : CollisionFree (records.map Json.obj) (records.map Json.obj)) :
    ((records.map Json.obj).map hashOf).Nodup := by
  by_cases hne : records = []
  · simp [hne]
  have hrooted := h.rooted hsize (i := 0) (by simp) (by simp) (show Before 0 none [] from rfl) hne
  rw [List.append_nil] at hrooted
  have hnodup := hrooted.nodup fun a ha b hb hab => by
    obtain ⟨d, hd, rfl⟩ := List.mem_map.mp (List.mem_reverse.mp ha)
    obtain ⟨d', hd', rfl⟩ := List.mem_map.mp (List.mem_reverse.mp hb)
    obtain ⟨hash, hhash⟩ := h.hashed hd
    obtain ⟨hash', hhash'⟩ := h.hashed hd'
    rw [hashOf_obj hhash, hashOf_obj hhash', Option.some.injEq] at hab
    exact linkOf_eq_of_pyEq (hcf d d' hash (List.mem_map_of_mem hd) (List.mem_map_of_mem hd') hhash (hab ▸ hhash'))
  rwa [List.map_reverse, List.nodup_reverse] at hnodup

/-- **Emitted records pass the check against a chain** whose subjects signed them under its credentials. -/
theorem Emits.crossChecks {hops : List HopSpec} {records : List (Dict Json)} (h : Emits none hops records)
    {chain : List DelegationCredential} (hlen : chain.length = hops.length)
    (hchain : ∀ i (hi : i < hops.length) (hi' : i < chain.length),
      hex (Crypto.edPublic hops[i].signingKey) = chain[i].subject ∧ (0 < i → hops[i].credentialId = chain[i].credentialId)) :
    crossCheckTraceDag (records.map Json.obj) chain = .ok () := by
  have hlength : (records.map Json.obj).length = chain.length := by rw [List.length_map, h.length_eq, hlen]
  rw [crossCheckTraceDag, if_neg (not_not.mpr hlength), crossCheckRecords_ok_iff]
  intro j hj hj'
  have hj'' : j < hops.length := hlen ▸ hj'
  obtain ⟨parent, hsigned, hparent⟩ := h.getElem (by simpa using hj) hj''
  obtain ⟨jwk, hjwk, hraw, _⟩ := recordJwk_of_signs hsigned
  obtain ⟨hsubject, hid⟩ := hchain j hj'' hj'
  rw [List.getElem_map, Nat.zero_add, crossCheckRecord_ok_iff]
  refine ⟨fun hpos => ?_, jwk, _, hjwk, hraw, hsubject⟩
  obtain ⟨p, rfl⟩ := Option.ne_none_iff_exists'.mp (hparent (.inl hpos))
  refine ⟨_, Emits.delegationOf hsigned, ?_⟩
  simp [Dict.get?_cons, hid hpos]

/-- **What `emit_dag` writes verifies.** The library signing the records of the hops, `emit_dag` returns; and if the record
hash does not collide on them, the verifier accepts them under the hops' keys and reports every hop and its subject in
order, and so does the check against any chain whose subjects signed the hops under its credentials. -/
theorem emitDag_verifies (hsize : ∀ b, (Crypto.sha256 b).length = 32) (hops : List HopSpec) (hne : hops ≠ [])
    (hs : ∀ hop ∈ hops, hop.Signable) (hid : ∀ hop ∈ hops.tail, hop.credentialId ≠ []) :
    ∃ records, emitDag hops = .ok records ∧
      (CollisionFree (records.map Json.obj) (records.map Json.obj) →
        (∀ clock, ∃ res,
          verifyTraceDag (records.map Json.obj) (hops.map fun hop => .ed25519 (Crypto.edPublic hop.signingKey)) none clock =
            .ok res ∧
          res.hops = hops.length ∧ res.subjects = hops.map fun hop => .str hop.subject) ∧
        ∀ chain : List DelegationCredential, chain.length = hops.length →
          (∀ i (hi : i < hops.length) (hi' : i < chain.length),
            hex (Crypto.edPublic hops[i].signingKey) = chain[i].subject ∧
              (0 < i → hops[i].credentialId = chain[i].credentialId)) →
          crossCheckTraceDag (records.map Json.obj) chain = .ok ()) := by
  obtain ⟨records, hrecords, hemits⟩ := exists_emits hsize hs (show 0 = 0 ↔ none = none by simp) (by simp)
  refine ⟨records, hrecords, fun hcf => ⟨fun clock => ?_, fun chain hlen hchain => hemits.crossChecks hlen hchain⟩⟩
  have hnonempty : records.map Json.obj ≠ [] := by
    rw [ne_eq, ← List.length_eq_zero_iff, List.length_map, hemits.length_eq, List.length_eq_zero_iff]
    exact hne
  have htrusted : (hops.map fun hop => TrustedKey.ed25519 (Crypto.edPublic hop.signingKey)).mapM trustedRawKey =
      .ok (hops.map fun hop => Crypto.edPublic hop.signingKey) := by
    rw [mapM_ok_iff, List.forall₂_map_left_iff, List.forall₂_map_right_iff]
    exact List.forall₂_same.mpr fun hop _ => rfl
  have hmem : ∀ hop ∈ hops, Crypto.edPublic hop.signingKey ∈
      (hops.map fun hop => Crypto.edPublic hop.signingKey).toFinset := fun hop hh =>
    List.mem_toFinset.mpr (List.mem_map.mpr ⟨hop, hh, rfl⟩)
  have hverify := hemits.verifies hsize (show 0 = 0 ↔ none = none by simp) (by simp) (by simpa using hid) hmem
    (hemits.nodup hsize hcf) (fun _ h => absurd h (Finset.notMem_empty _)) clock
  refine ⟨_, verifyTraceDag_ok_iff.mpr ⟨hnonempty, _, _, htrusted, hverify, rfl⟩, ?_, rfl⟩
  rw [List.length_map, hemits.length_eq]

end

/-! ## Two hops in the toy model -/

/-- The primitives of `Crypto.agreed`, with a digest that tells the length of a text. -/
@[reducible] def Crypto.measured : Crypto :=
  { Crypto.agreed with sha256 := fun b => List.replicate 32 (UInt8.ofNat b.length) }

/-- The JWK of a key. -/
def toyJwk (raw : Bytes) : Dict Json :=
  [(lit "kty", .str (lit "OKP")), (lit "crv", .str (lit "Ed25519")), (lit "x", .str (b64urlEncode raw))]

/-- The record with its key and, for a signature, the name of the key. -/
def toySigned (record : Dict Json) (raw : Bytes) : Dict Json :=
  Dict.set (Dict.set record (lit "cnf") (.obj [(lit "jwk", .obj (toyJwk raw))])) (lit "signature") (.str (hex raw))

/-- Any record is valid; the canonical form is that of the credentials. -/
@[reducible] def TraceLib.toy : @TraceLib Crypto.measured :=
  let _ := Interp.ascii
  let _ := Crypto.measured
  { signRecord := fun record key => .ok (toySigned record (Crypto.edPublic key))
    validateJson := fun _ => .ok ()
    verifyRecord := fun record jwk _ _ => do
      let raw ← jwkRaw jwk
      if (Dict.get? record (lit "signature")).bind Json.str? = some (hex raw) then .ok ()
      else .error (.builtin .invalidSignature [])
    dumps := fun j =>
      match canonicalize (ε := CA2AError) j with
      | .ok b => .ok b
      | .error _ => .ok [] }

theorem toySigns (record : Dict Json) (key : UInt8) :
    let _ := Crypto.measured
    let _ := TraceLib.toy
    TraceLib.Signs record key (toySigned record (Crypto.edPublic key)) := by
  intro _ _
  let _ := Interp.ascii
  have hjwk : IsJwk (Crypto.edPublic key) (toyJwk (Crypto.edPublic key)) := by
    refine ⟨?_, ?_, ?_⟩
    all_goals simp [toyJwk, Dict.get?_cons]
  have hsignature : (Dict.get? (toySigned record (Crypto.edPublic key)) (lit "signature")).bind Json.str? =
      some (hex (Crypto.edPublic key)) := by
    rw [toySigned, Dict.get?_set_self]
    rfl
  refine ⟨rfl, fun k hcnf hsig => ?_, rfl,
    ⟨[(lit "jwk", .obj (toyJwk (Crypto.edPublic key)))], _, ?_, ?_, hjwk, fun now => ?_⟩, ?_⟩
  · rw [toySigned, Dict.get?_set_other _ _ hsig, Dict.get?_set_other _ _ hcnf]
  · rw [toySigned, Dict.get?_set_other _ _ (by simp), Dict.get?_set_self]
  · simp [Dict.get?_cons]
  · show (jwkRaw (.obj (toyJwk (Crypto.edPublic key))) >>= fun raw => _) = _
    rw [jwkRaw_of_isJwk hjwk, ok_bind, if_pos hsignature]
  · show ∃ b, (match canonicalize (ε := CA2AError) (.obj (toySigned record (Crypto.edPublic key))) with
      | .ok b => .ok b
      | .error _ => .ok []) = Except.ok b
    split
    · exact ⟨_, rfl⟩
    · exact ⟨_, rfl⟩

/-- A hop in software mode. -/
def toyHop (signingKey : UInt8) (credentialId : Str) : @HopSpec Crypto.measured :=
  let _ := Crypto.measured
  { subject := lit "spiffe://ca2a.example/peer"
    signingKey := signingKey
    context :=
      { modelProvider := lit "provider"
        modelId := lit "model"
        runtimeMeasurement := digest []
        policyBundleHash := digest []
        buildDigest := digest []
        appraisalVerifier := lit "https://appraisal.invalid/software-mode"
        transparency := lit "https://transparency.invalid/software-mode" }
    iat := 1
    credentialId }

/-- Two hops, alike but for what they are signed with. -/
def toyHops : List (@HopSpec Crypto.measured) := [toyHop 2 [], toyHop 3 (lit "c1")]

theorem toyHops_signable :
    let _ := Crypto.measured
    let _ := TraceLib.toy
    ∀ hop ∈ toyHops, hop.Signable := by
  intro _ _ hop _ parentHash _
  exact ⟨_, toySigns _ _⟩

/-- What the toy library signs has no floats. -/
theorem noFloat_toySigned [Crypto] (hop : HopSpec) (parentHash : Option Str) (raw : Bytes) :
    (Json.obj (toySigned (hop.record parentHash) raw)).NoFloat := by
  have hstr : ∀ s, (Json.str s).NoFloat := fun _ => trivial
  have hint : ∀ i, (Json.int i).NoFloat := fun _ => trivial
  have hopt : ∀ (k : Str) (o : Option Str) (k' : Str) (j : Json), (k', j) ∈ optField k (o.map .str) → j.NoFloat := by
    intro k o k' j hkv
    obtain ⟨_, hj, hkv⟩ := mem_optField.mp hkv
    obtain ⟨s, _, rfl⟩ := Option.map_eq_some_iff.mp hj
    cases hkv
    exact hstr s
  have hbase : ∀ kv ∈ baseRecord hop.subject hop.iat hop.context, kv.2.NoFloat := by
    simp only [baseRecord, List.forall_mem_cons, Json.noFloat_obj, List.forall_mem_append, hstr, hint, true_and]
    simp only [List.not_mem_nil, IsEmpty.forall_iff, implies_true, and_true, true_and, Prod.forall]
    exact ⟨hopt _ _, hopt _ _, hopt _ _⟩
  have hrecord : ∀ kv ∈ hop.record parentHash, kv.2.NoFloat := by
    cases parentHash with
    | none => exact hbase
    | some p => exact List.forall_mem_append.mpr ⟨hbase, by simp [delegationBlock, hstr]⟩
  rw [Json.noFloat_obj]
  intro kv hkv
  rcases Dict.mem_set hkv with hkv | hkv
  · rcases Dict.mem_set hkv with hkv | hkv
    · exact hrecord kv hkv
    · simp [hkv, toyJwk, hstr]
  · rw [hkv]
    exact hstr _

theorem toyHops_collisionFree :
    let _ := Interp.ascii
    let _ := Crypto.measured
    let _ := TraceLib.toy
    ∀ records, emitDag toyHops = .ok records → CollisionFree (records.map Json.obj) (records.map Json.obj) := by
  intro _ _ _ records hrecords a b hash ha hb hhash hhash'
  have hsize : ∀ b, (Crypto.sha256 b).length = 32 := fun _ => List.length_replicate
  obtain ⟨records', hrecords', hemits⟩ := exists_emits hsize toyHops_signable (show 0 = 0 ↔ none = none by simp) (by simp)
  cases hrecords.symm.trans hrecords'
  have hsame : ∀ r ∈ records, Json.PyEq (.obj r) (.obj r) := by
    intro r hr
    obtain ⟨j, hj, rfl⟩ := List.getElem_of_mem hr
    obtain ⟨parent, hsigned, _⟩ := hemits.getElem hj (hemits.length_eq ▸ hj)
    exact .refl (Except.ok.inj hsigned.signed_eq ▸ noFloat_toySigned _ parent _)
  have hdistinct : (emitDag toyHops >>= fun records =>
      if (records.map fun r => (traceRecordHash r).toOption).Nodup then .ok () else raise .traceRecordInvalid []).isOk =
        true := by decide +kernel
  rw [hrecords, ok_bind] at hdistinct
  have hmem : a ∈ records ∧ b ∈ records := ⟨by simpa using ha, by simpa using hb⟩
  split at hdistinct
  · rename_i hnodup
    have hab : a = b := List.inj_on_of_nodup_map hnodup hmem.1 hmem.2 (by rw [hhash, hhash'])
    exact hab ▸ hsame a hmem.1
  · cases hdistinct

theorem emitDag_verifies_toyHops :
    let _ := Interp.ascii
    let _ := Crypto.measured
    let _ := TraceLib.toy
    ∃ records res, emitDag toyHops = .ok records ∧
      verifyTraceDag (records.map Json.obj) (toyHops.map fun hop => .ed25519 (Crypto.edPublic hop.signingKey)) none
        (fun _ => 0) = .ok res ∧ res.hops = 2 := by
  intro _ _ _
  have hsize : ∀ b, (Crypto.sha256 b).length = 32 := fun _ => List.length_replicate
  obtain ⟨records, hrecords, hverifies⟩ := emitDag_verifies hsize toyHops (by decide) toyHops_signable (by decide)
  obtain ⟨res, hres, hhops, _⟩ := (hverifies (toyHops_collisionFree records hrecords)).1 fun _ => 0
  exact ⟨records, res, hrecords, hres, hhops⟩

end Ca2a
