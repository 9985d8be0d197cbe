/-
What a verified DAG of records commits to.

`checkRecord_ok_iff` says when one turn of the verifier returns. The turns make
the records, read from the leaf, a chain of hashes (`HashChain.Rooted`), so the
leaf determines every record before it; the check against the delegation chain
adds whose keys signed them.
-/
import Ca2a.HashChain
import Ca2a.Trace

namespace Ca2a

open Py

/-! ## One record -/

/-- The delegation block of a record, `None` when there is none. -/
def delegationOf (record : Dict Json) : Json := (Dict.get? record (lit "delegation")).getD .null

/-- The block is that of a record after the root. -/
structure IsBlock (block : Json) (link credentialId : Str) : Prop where
  fields : ∃ d, block = .obj d ∧ (Dict.keys d).toFinset = {lit "parent_record_hash", lit "credential_id"} ∧
    Dict.get? d (lit "parent_record_hash") = some (.str link) ∧ Dict.get? d (lit "credential_id") = some (.str credentialId)
  digest : isTraceDigest link = true
  credential : credentialId ≠ []

theorem any_str_iff {o : Option Json} {p : Str → Bool} :
    (o.bind Json.str?).any p = true ↔ ∃ s, o = some (.str s) ∧ p s = true := by
  cases o with
  | none => simp
  | some j => cases j <;> simp [Json.str?]

/-- `or {}` leaves a value as it is, or puts an empty dictionary in the place of something else. -/
theorem orEmpty_cases (value : Json) : orEmpty value = value ∨ orEmpty value = .obj [] ∧ ∀ d, value ≠ .obj d := by
  unfold orEmpty
  split
  case h_7 q => by_cases hq : q = 0 <;> simp [hq]
  all_goals simp

theorem get?_orEmpty_iff {value : Json} {k : Str} {v : Json} :
    (∃ d, orEmpty value = .obj d ∧ Dict.get? d k = some v) ↔ ∃ d, value = .obj d ∧ Dict.get? d k = some v := by
  rcases orEmpty_cases value with h | ⟨h, hne⟩
  · rw [h]
  · rw [h]
    constructor
    · rintro ⟨_, hd, hget⟩
      cases hd
      cases hget
    · rintro ⟨d, hd, _⟩
      exact absurd hd (hne d)

section
variable [Interp]

omit [Interp] in
/-- `value.get(k)` is a string. -/
theorem getDefault_str_iff {value : Json} {k s : Str} :
    (∃ v, getDefault value k .null = .ok v ∧ v.str? = some s) ↔
      ∃ d, value = .obj d ∧ Dict.get? d k = some (.str s) := by
  have hstr : ∀ {v : Json}, v.str? = some s ↔ v = .str s := by
    intro v
    cases v <;> simp [Json.str?]
  cases value with
  | obj d =>
    simp only [getDefault, Except.ok.injEq, exists_eq_left', Json.obj.injEq, hstr]
    cases Dict.get? d k <;> simp
  | null | bool _ | int _ | float _ | str _ | arr _ => simp [getDefault]

theorem validateDelegationBlock_ok_iff {block : Json} {i : Nat} :
    validateDelegationBlock block i = .ok () ↔ block = .null ∨ ∃ link credentialId, IsBlock block link credentialId := by
  cases block with
  | null => simp [validateDelegationBlock]
  | obj d =>
    simp only [validateDelegationBlock, reduceCtorEq, false_or]
    constructor
    · intro h
      split at h
      · cases h
      rename_i hkeys
      split at h
      · cases h
      rename_i hlink
      split at h
      · cases h
      rename_i hid
      rw [Bool.not_eq_false, any_str_iff] at hlink hid
      obtain ⟨link, hlink, hdigest⟩ := hlink
      obtain ⟨credentialId, hid, hne⟩ := hid
      exact ⟨link, credentialId, ⟨d, rfl, not_not.mp hkeys, hlink, hid⟩, hdigest, by simpa using hne⟩
    · rintro ⟨link, credentialId, ⟨d', hd, hkeys, hlink, hid⟩, hdigest, hne⟩
      cases hd
      rw [if_neg (not_not.mpr hkeys), if_neg (by simp [hlink, Json.str?, hdigest]),
        if_neg (by simp [hid, Json.str?, hne])]
  | bool b | int i | float f | str s | arr xs =>
    simp only [validateDelegationBlock, reduceCtorEq, false_or]
    refine ⟨fun h => absurd h raise_ne_ok, ?_⟩
    rintro ⟨link, credentialId, ⟨d, hd, _⟩, _⟩
    cases hd

theorem subscript_obj_ok_iff {d : Dict Json} {k : Str} {v : Json} :
    subscript (.obj d) k = .ok v ↔ Dict.get? d k = some v := by
  rw [subscript]
  split <;> simp_all

theorem checkParentHash_ok_iff {i : Nat} {prevHash : Option Str} {delegation : Json} :
    checkParentHash i prevHash delegation = .ok () ↔ ∃ link, subscript delegation (lit "parent_record_hash") = .ok (.str link) ∧
      (linkDigest ++ lit ":").isPrefixOf link = true ∧ prevHash = some link := by
  rw [checkParentHash, bind_ok_iff]
  constructor
  · intro ⟨link, hlink, h⟩
    cases link with
    | str link =>
      simp only at h
      split at h
      · cases h
      rename_i hstart
      split at h
      · cases h
      rename_i hsame
      exact ⟨link, hlink, by simpa using hstart, (not_not.mp hsame).symm⟩
    | null | bool _ | int _ | float _ | arr _ | obj _ => cases h
  · rintro ⟨link, hlink, hstart, rfl⟩
    exact ⟨.str link, hlink, by simp [hstart]⟩

/-- The delegation block of record `i` is right: there is none at the root, and after it one that names the previous
hash. -/
def LinkedTo : (i : Nat) → (prevHash : Option Str) → (delegation : Json) → Prop
  | 0, _, delegation => delegation = .null
  | _ + 1, prevHash, delegation => ∃ link, subscript delegation (lit "parent_record_hash") = .ok (.str link) ∧
      (linkDigest ++ lit ":").isPrefixOf link = true ∧ prevHash = some link

theorem checkParentLink_ok_iff {i : Nat} {prevHash : Option Str} {delegation : Json} :
    checkParentLink i prevHash delegation = .ok () ↔ LinkedTo i prevHash delegation := by
  cases i with
  | zero => cases delegation <;> simp [checkParentLink, LinkedTo]
  | succ i =>
    rw [LinkedTo, ← checkParentHash_ok_iff (i := i + 1)]
    cases delegation <;> simp [checkParentLink, checkParentHash, subscript]

end

/-! ## The verifier -/

section
variable [Interp] [Crypto] [TraceLib]

omit [Interp] in
theorem verifySigned_ok_iff {i : Nat} {record : Dict Json} {jwk : Json} {maxAge : Option Int} {now : Int} :
    verifySigned i record jwk maxAge now = .ok () ↔ TraceLib.verifyRecord record jwk maxAge now = .ok () := by
  rw [verifySigned, catchBuiltin_ok_iff (by simp), catchBuiltin_ok_iff (by simp)]

/-- What one turn of the loop establishes of a record. -/
structure RecordAccepted (trusted : Finset Bytes) (maxAge : Option Int) (now : Int) (i : Nat) (prevHash : Option Str)
    (seenHashes : Finset Str) (record : Dict Json) (hash : Str) (subject : Json) : Prop where
  schema : TraceLib.validateJson (Dict.erase record (lit "delegation")) = .ok ()
  block : delegationOf record = .null ∨ ∃ link credentialId, IsBlock (delegationOf record) link credentialId
  key : ∃ jwk raw, recordJwk (.obj record) = .ok jwk ∧ jwkRaw jwk = .ok raw ∧ raw ∈ trusted ∧
    TraceLib.verifyRecord record jwk maxAge now = .ok ()
  hashed : traceRecordHash record = .ok hash
  unseen : hash ∉ seenHashes
  linked : LinkedTo i prevHash (delegationOf record)
  subject_eq : Dict.get? record (lit "subject") = some subject

/-- **When one turn of the loop returns.** -/
theorem checkRecord_ok_iff {trusted : Finset Bytes} {maxAge : Option Int} {now : Int} {i : Nat} {prevHash : Option Str}
    {seenHashes : Finset Str} {record : Json} {hash : Str} {subject : Json} :
    checkRecord trusted maxAge now i prevHash seenHashes record = .ok (hash, subject) ↔
      ∃ d, record = .obj d ∧ RecordAccepted trusted maxAge now i prevHash seenHashes d hash subject := by
  cases record with
  | obj d =>
    simp only [Json.obj.injEq, exists_eq_left', checkRecord, bind_ok_iff]
    constructor
    · intro ⟨_, hschema, _, hblock, jwk, hjwk, raw, hraw, h⟩
      split at h
      · cases h
      rename_i htrusted
      simp only [bind_ok_iff] at h
      obtain ⟨_, hverify, hash', hhash, h⟩ := h
      split at h
      · cases h
      rename_i hseen
      simp only [bind_ok_iff, Except.ok.injEq, Prod.mk.injEq] at h
      obtain ⟨_, hlink, subject', hsubject, rfl, rfl⟩ := h
      exact
        { schema := (catchAny_ok_iff (by simp)).mp hschema
          block := validateDelegationBlock_ok_iff.mp hblock
          key := ⟨jwk, raw, hjwk, hraw, not_not.mp htrusted, verifySigned_ok_iff.mp hverify⟩
          hashed := hhash
          unseen := hseen
          linked := checkParentLink_ok_iff.mp hlink
          subject_eq := subscript_obj_ok_iff.mp hsubject }
    · intro h
      obtain ⟨jwk, raw, hjwk, hraw, htrusted, hverify⟩ := h.key
      refine ⟨(), (catchAny_ok_iff (by simp)).mpr h.schema, (), validateDelegationBlock_ok_iff.mpr h.block, jwk, hjwk, raw,
        hraw, ?_⟩
      rw [if_neg (not_not.mpr htrusted), verifySigned_ok_iff.mpr hverify, ok_bind, h.hashed, ok_bind, if_neg h.unseen,
        show checkParentLink i prevHash ((Dict.get? d (lit "delegation")).getD .null) = .ok () from
          checkParentLink_ok_iff.mpr h.linked, ok_bind, subscript_obj_ok_iff.mpr h.subject_eq]
      rfl
  | null | bool b | int i | float f | str s | arr xs => simp [checkRecord]

/-- The first record is accepted, and the rest after it. -/
theorem verifyRecords_cons_ok {trusted : Finset Bytes} {maxAge : Option Int} {clock : Nat → Int} {i : Nat}
    {prevHash : Option Str} {seenHashes : Finset Str} {record : Json} {records subjects : List Json}
    (h : verifyRecords trusted maxAge clock i prevHash seenHashes (record :: records) = .ok subjects) :
    ∃ d hash subject subjects', record = .obj d ∧
      RecordAccepted trusted maxAge (clock i) i prevHash seenHashes d hash subject ∧
      verifyRecords trusted maxAge clock (i + 1) (some hash) (insert hash seenHashes) records = .ok subjects' := by
  rw [verifyRecords, bind_ok_iff] at h
  obtain ⟨⟨hash, subject⟩, hcheck, h⟩ := h
  rw [bind_ok_iff] at h
  obtain ⟨subjects', hrest, _⟩ := h
  obtain ⟨d, hd, haccepted⟩ := checkRecord_ok_iff.mp hcheck
  exact ⟨d, hash, subject, subjects', hd, haccepted, hrest⟩

/-- Every record of a verified list was accepted in its turn. -/
theorem accepted_of_verifyRecords {trusted : Finset Bytes} {maxAge : Option Int} {clock : Nat → Int} {i : Nat}
    {prevHash : Option Str} {seenHashes : Finset Str} {records subjects : List Json}
    (h : verifyRecords trusted maxAge clock i prevHash seenHashes records = .ok subjects) {record : Json}
    (hrecord : record ∈ records) :
    ∃ d now j prev seen hash subject, record = .obj d ∧ RecordAccepted trusted maxAge now j prev seen d hash subject := by
  induction records generalizing i prevHash seenHashes subjects with
  | nil => cases hrecord
  | cons r records ih =>
    obtain ⟨d, hash, subject, subjects', hd, haccepted, hrest⟩ := verifyRecords_cons_ok h
    rcases List.mem_cons.mp hrecord with rfl | hrecord
    · exact ⟨d, _, _, _, _, hash, subject, hd, haccepted⟩
    · exact ih hrest hrecord

theorem verifyTraceDag_ok_iff {records : List Json} {keys : List TrustedKey} {maxAge : Option Int} {clock : Nat → Int}
    {res : TraceDagResult} :
    verifyTraceDag records keys maxAge clock = .ok res ↔
      records ≠ [] ∧ ∃ trusted subjects, keys.mapM trustedRawKey = .ok trusted ∧
        verifyRecords trusted.toFinset maxAge clock 0 none ∅ records = .ok subjects ∧
        res = ⟨records.length, subjects.headD .null, subjects.getLastD .null, subjects⟩ := by
  cases records with
  | nil => simp [verifyTraceDag]
  | cons r records =>
    simp only [verifyTraceDag, List.isEmpty_cons, Bool.false_eq_true, if_false, bind_ok_iff, Except.ok.injEq, ne_eq,
      reduceCtorEq, not_false_eq_true, true_and, eq_comm (a := res)]
    exact ⟨fun ⟨t, ht, s, hs, h⟩ => ⟨t, s, ht, hs, h⟩, fun ⟨t, s, ht, hs, h⟩ => ⟨t, ht, s, hs, h⟩⟩

/-! ## The chain of hashes -/

omit [Interp] in
/-- The hash of a record, if it has one. -/
def hashOf : Json → Option Str
  | .obj d => (traceRecordHash d).toOption
  | _ => none

omit [Interp] [Crypto] [TraceLib] in
/-- The parent hash in a delegation block. -/
def blockLink : Json → Option (Option Str)
  | .obj block => ((Dict.get? block (lit "parent_record_hash")).bind Json.str?).map some
  | _ => none

omit [Interp] [Crypto] [TraceLib] in
/-- The hash a record names as its parent's. -/
def linkOf : Json → Option (Option Str)
  | .obj d => blockLink (delegationOf d)
  | _ => none

omit [Interp] in
theorem hashOf_obj {d : Dict Json} {hash : Str} (h : traceRecordHash d = .ok hash) : hashOf (.obj d) = some hash := by
  rw [hashOf, h]
  rfl

omit [Crypto] [TraceLib] in
theorem linkOf_root {prevHash : Option Str} {d : Dict Json} (h : LinkedTo 0 prevHash (delegationOf d)) :
    linkOf (.obj d) = none := by
  rw [LinkedTo] at h
  rw [linkOf, h]
  rfl

omit [Crypto] [TraceLib] in
theorem linkOf_next {i : Nat} {prevHash : Option Str} {d : Dict Json} (h : LinkedTo (i + 1) prevHash (delegationOf d)) :
    linkOf (.obj d) = some prevHash := by
  obtain ⟨link, hlink, _, rfl⟩ := h
  cases hblock : delegationOf d with
  | obj block =>
    rw [hblock, subscript_obj_ok_iff] at hlink
    simp [linkOf, blockLink, hblock, hlink, Json.str?]
  | null | bool _ | int _ | float _ | str _ | arr _ =>
    rw [hblock] at hlink
    cases hlink

omit [Interp] in
/-- What stands before record `i`, from the last one back: a chain of hashes that ends in `prevHash`. -/
def Before : (i : Nat) → (prevHash : Option Str) → List Json → Prop
  | 0, _, before => before = []
  | _ + 1, prevHash, before => ∃ p l, before = p :: l ∧ hashOf p = prevHash ∧ HashChain.Rooted hashOf linkOf before

/-- One record more. -/
theorem rooted_of_linked {i : Nat} {prevHash : Option Str} {before : List Json} (hb : Before i prevHash before)
    {d : Dict Json} (h : LinkedTo i prevHash (delegationOf d)) : HashChain.Rooted hashOf linkOf (.obj d :: before) := by
  cases i with
  | zero =>
    rw [Before] at hb
    exact hb ▸ .root (linkOf_root h)
  | succ i =>
    obtain ⟨p, l, rfl, hp, hrooted⟩ := hb
    exact .step (by rw [hp]; exact linkOf_next h) hrooted

/-- **Verified records are a chain of hashes**, read from the leaf. -/
theorem rooted_of_verifyRecords {trusted : Finset Bytes} {maxAge : Option Int} {clock : Nat → Int} {i : Nat}
    {prevHash : Option Str} {seenHashes : Finset Str} {records subjects before : List Json}
    (h : verifyRecords trusted maxAge clock i prevHash seenHashes records = .ok subjects) (hne : records ≠ [])
    (hb : Before i prevHash before) : HashChain.Rooted hashOf linkOf (records.reverse ++ before) := by
  induction records generalizing i prevHash seenHashes subjects before with
  | nil => exact absurd rfl hne
  | cons r records ih =>
    obtain ⟨d, hash, subject, subjects', rfl, haccepted, hrest⟩ := verifyRecords_cons_ok h
    have hrooted := rooted_of_linked hb haccepted.linked
    rw [List.reverse_cons, List.append_assoc, List.singleton_append]
    by_cases hlast : records = []
    · rw [hlast]
      exact hrooted
    · exact ih hrest hlast ⟨.obj d, before, rfl, hashOf_obj haccepted.hashed, hrooted⟩

/-! ## Tampering -/

omit [Interp] in
/-- Two records with one hash are equal, whichever of the two lists they are from. -/
def CollisionFree (records records' : List Json) : Prop :=
  ∀ a b hash, .obj a ∈ records → .obj b ∈ records' → traceRecordHash a = .ok hash → traceRecordHash b = .ok hash →
    Json.PyEq (.obj a) (.obj b)

omit [Interp] [Crypto] [TraceLib] in
/-- A number is no string and no dictionary. -/
theorem none_of_number {v : Json} {x : WithBot (WithTop ℚ)} (h : v.number? = some x) :
    v.str? = none ∧ blockLink v = none ∧ linkOf v = none := by
  cases v with
  | bool _ | int _ | float _ => exact ⟨rfl, rfl, rfl⟩
  | null | str _ | arr _ | obj _ => cases h

omit [Interp] [Crypto] [TraceLib] in
theorem str?_eq_of_pyEq {v w : Json} (h : Json.PyEq v w) : v.str? = w.str? := by
  cases h with
  | null | str _ | arr _ | obj _ => rfl
  | number hv hw => rw [(none_of_number hv).1, (none_of_number hw).1]

omit [Interp] [Crypto] [TraceLib] in
theorem blockLink_eq_of_pyEq {v w : Json} (h : Json.PyEq v w) : blockLink v = blockLink w := by
  cases h with
  | null | str _ | arr _ => rfl
  | number hv hw => rw [(none_of_number hv).2.1, (none_of_number hw).2.1]
  | @obj d e h =>
    have hrel := h (lit "parent_record_hash")
    rw [blockLink, blockLink]
    generalize Dict.get? d (lit "parent_record_hash") = o, Dict.get? e (lit "parent_record_hash") = o' at hrel ⊢
    cases hrel with
    | none => rfl
    | some hlink => rw [Option.bind_some, Option.bind_some, str?_eq_of_pyEq hlink]

omit [Interp] [Crypto] [TraceLib] in
/-- Equal records name one parent. -/
theorem linkOf_eq_of_pyEq {v w : Json} (h : Json.PyEq v w) : linkOf v = linkOf w := by
  cases h with
  | null | str _ | arr _ => rfl
  | number hv hw => rw [(none_of_number hv).2.2, (none_of_number hw).2.2]
  | @obj d e h =>
    have hrel := h (lit "delegation")
    rw [linkOf, linkOf, delegationOf, delegationOf]
    generalize Dict.get? d (lit "delegation") = o, Dict.get? e (lit "delegation") = o' at hrel ⊢
    cases hrel with
    | none => rfl
    | some hblock => exact blockLink_eq_of_pyEq hblock

/-- **The leaf determines the records before it.** -/
theorem forall₂_of_verifyTraceDag {records records' : List Json} {keys keys' : List TrustedKey} {maxAge maxAge' : Option Int}
    {clock clock' : Nat → Int} {res res' : TraceDagResult} (h : verifyTraceDag records keys maxAge clock = .ok res)
    (h' : verifyTraceDag records' keys' maxAge' clock' = .ok res') (hcf : CollisionFree records records')
    (hlast : ∀ a ∈ records.getLast?, ∀ b ∈ records'.getLast?, Json.PyEq a b) :
    List.Forall₂ Json.PyEq records records' := by
  obtain ⟨hne, trusted, subjects, _, hverify, _⟩ := verifyTraceDag_ok_iff.mp h
  obtain ⟨hne', trusted', subjects', _, hverify', _⟩ := verifyTraceDag_ok_iff.mp h'
  have hrooted := rooted_of_verifyRecords hverify hne (show Before 0 none [] from rfl)
  have hrooted' := rooted_of_verifyRecords hverify' hne' (show Before 0 none [] from rfl)
  rw [List.append_nil] at hrooted hrooted'
  have hhash : ∀ a ∈ records, ∀ b ∈ records', hashOf a = hashOf b → Json.PyEq a b := by
    intro a ha b hb hab
    obtain ⟨d, _, _, _, _, hash, _, rfl, haccepted⟩ := accepted_of_verifyRecords hverify ha
    obtain ⟨d', _, _, _, _, hash', _, rfl, haccepted'⟩ := accepted_of_verifyRecords hverify' hb
    rw [hashOf_obj haccepted.hashed, hashOf_obj haccepted'.hashed, Option.some.injEq] at hab
    exact hcf d d' hash ha hb haccepted.hashed (hab ▸ haccepted'.hashed)
  rw [← List.forall₂_reverse_iff]
  obtain ⟨r, l, hr⟩ := List.exists_cons_of_ne_nil (List.reverse_ne_nil_iff.mpr hne)
  obtain ⟨r', l', hr'⟩ := List.exists_cons_of_ne_nil (List.reverse_ne_nil_iff.mpr hne')
  rw [hr] at hrooted ⊢
  rw [hr'] at hrooted' ⊢
  have hmem : ∀ a ∈ l, a ∈ records := fun a ha => List.mem_reverse.mp (hr ▸ List.mem_cons_of_mem _ ha)
  have hmem' : ∀ a ∈ l', a ∈ records' := fun a ha => List.mem_reverse.mp (hr' ▸ List.mem_cons_of_mem _ ha)
  refine hrooted.forall₂ (fun _ _ => linkOf_eq_of_pyEq) hrooted' (fun a ha b hb => hhash a (hmem a ha) b (hmem' b hb)) ?_
  exact hlast r (by simp [List.getLast?_eq_head?_reverse, hr]) r' (by simp [List.getLast?_eq_head?_reverse, hr'])

/-! ## Against the chain -/

omit [Interp] [Crypto] [TraceLib] in
theorem crossCheckCredential_ok_iff {i : Nat} {d : Dict Json} {cred : DelegationCredential} :
    crossCheckCredential i (.obj d) cred = .ok () ↔ (0 < i → ∃ block, delegationOf d = .obj block ∧
      Dict.get? block (lit "credential_id") = some (.str cred.credentialId)) := by
  by_cases hi : 0 < i
  · have hget : getDefault (.obj d) (lit "delegation") .null = .ok (delegationOf d) := rfl
    rw [forall_prop_of_true hi, ← get?_orEmpty_iff, ← getDefault_str_iff, crossCheckCredential, if_pos hi, hget, ok_bind,
      bind_ok_iff]
    refine exists_congr fun credentialId => and_congr_right fun _ => ?_
    by_cases hsame : credentialId.str? = some cred.credentialId <;> simp [hsame]
  · simp [crossCheckCredential, hi]

omit [Crypto] [TraceLib] in
/-- What the check of record `i` against its credential establishes. -/
theorem crossCheckRecord_ok_iff {i : Nat} {d : Dict Json} {cred : DelegationCredential} :
    crossCheckRecord i (.obj d) cred = .ok () ↔
      (0 < i → ∃ block, delegationOf d = .obj block ∧
        Dict.get? block (lit "credential_id") = some (.str cred.credentialId)) ∧
      ∃ jwk raw, recordJwk (.obj d) = .ok jwk ∧ jwkRaw jwk = .ok raw ∧ hex raw = cred.subject := by
  rw [crossCheckRecord, bind_unit_ok_iff, crossCheckCredential_ok_iff]
  refine and_congr_right fun _ => ?_
  simp only [bind_ok_iff]
  constructor
  · intro ⟨jwk, hjwk, raw, hraw, h⟩
    split at h
    · cases h
    rename_i hsame
    exact ⟨jwk, raw, hjwk, hraw, not_not.mp hsame⟩
  · intro ⟨jwk, raw, hjwk, hraw, hsame⟩
    exact ⟨jwk, hjwk, raw, hraw, if_neg (not_not.mpr hsame)⟩

omit [Crypto] [TraceLib] in
theorem crossCheckRecords_ok_iff {i : Nat} {records : List Json} {chain : List DelegationCredential} :
    crossCheckRecords i records chain = .ok () ↔
      ∀ j (h : j < records.length) (h' : j < chain.length), crossCheckRecord (i + j) records[j] chain[j] = .ok () := by
  induction records generalizing i chain with
  | nil => simp [crossCheckRecords]
  | cons r records ih =>
    cases chain with
    | nil => simp [crossCheckRecords]
    | cons c chain =>
      rw [crossCheckRecords, bind_unit_ok_iff, ih]
      constructor
      · intro ⟨hfirst, hrest⟩ j h h'
        cases j with
        | zero => exact hfirst
        | succ j =>
          have := hrest j (by simpa using h) (by simpa using h')
          rwa [Nat.add_right_comm, Nat.add_assoc] at this
      · intro h
        refine ⟨h 0 (by simp) (by simp), fun j hj hj' => ?_⟩
        have := h (j + 1) (by simpa using hj) (by simpa using hj')
        rwa [← Nat.add_assoc, Nat.add_right_comm] at this

end

end Ca2a
