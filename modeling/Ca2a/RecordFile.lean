/-
`_load_records`: the records of a DAG file, as they were written.

The writer leaves out a field at its default and the reader puts the default
back, so what each key holds decides the record (`RecordFields.read`). The
hash is over the record, not over the file, and `record_hash` in a file is
not read at all.
-/
import Ca2a.ProvenanceDag
import Ca2a.Wire

namespace Ca2a

open Py

/-- `CALLER_ATTESTATION_VALUES` -/
def callerAttestationValues : List CallerAttestation := [.notOffered, .failed, .softwareOnly, .hardware]

def CallerAttestation.ofText? (text : Str) : Option CallerAttestation :=
  callerAttestationValues.find? fun value => value.text = text

/-- What a path holds for `json.loads(p.read_text(encoding="utf-8"))`. -/
inductive DagFile
  | missing
  | document (data : Json)
  /-- `JSONDecodeError` -/
  | notJson (text : Str)
  /-- What else reading the text and decoding it raise. -/
  | unreadable (e : Exc)

/-- `for x in value` -/
def iterItems (value : Json) : Result (List Json) :=
  match value with
  | .arr xs => .ok xs
  | .str s => .ok (s.map fun c => .str [c])
  | .obj d => .ok ((Dict.keys d).map .str)
  | _ => .error (.builtin .typeError (lit "'" ++ value.typeName ++ lit "' object is not iterable"))

section
variable [Interp]

/-- `None if value is None else str(value)` -/
def textOrNone (value : Json) : Option Str :=
  match value with
  | .null => none
  | value => some value.text

/-- `frozenset(str(s) for s in value)` -/
def textSet (value : Json) : Result (Finset Str) := do
  let items ← iterItems value
  .ok (items.map Json.text).toFinset

/-- `None if value is None else frozenset(str(s) for s in value)` -/
def textSetOrNone (value : Json) : Result (Option (Finset Str)) :=
  match value with
  | .null => .ok none
  | value => do
    let set ← textSet value
    .ok (some set)

/-- The `DelegationRecord` of an item. An integer that was read from JSON is short enough to be printed. -/
def readRecord (item : Json) : Result DelegationRecord := do
  let recordId ← subscript item (lit "record_id")
  let credentialId ← subscript item (lit "credential_id")
  let subject ← subscript item (lit "subject")
  let scopeItems ← subscript item (lit "scope")
  let scope ← textSet scopeItems
  let parentRecordHash ← getDefault item (lit "parent_record_hash") .null
  let decision ← getDefault item (lit "decision") (.str (lit "allow"))
  let requestedCapability ← getDefault item (lit "requested_capability") .null
  let effectiveItems ← getDefault item (lit "effective_scope") .null
  let effectiveScope ← textSetOrNone effectiveItems
  let denialReason ← getDefault item (lit "denial_reason") .null
  let callerAttestation ← getDefault item (lit "caller_attestation") (.str CallerAttestation.notOffered.text)
  match CallerAttestation.ofText? callerAttestation.text with
  | some attestation =>
    .ok
      { recordId := recordId.text
        credentialId := credentialId.text
        subject := subject.text
        scope
        parentRecordHash := textOrNone parentRecordHash
        decision := decision.text
        requestedCapability := textOrNone requestedCapability
        effectiveScope
        denialReason := textOrNone denialReason
        callerAttestation := attestation }
  | none =>
    .error (.builtin .valueError (lit "caller_attestation must be one of " ++
      reprList (sortedStrs (callerAttestationValues.map CallerAttestation.text).toFinset) ++ lit ", got " ++
      Py.repr callerAttestation.text))

/-- What `except (KeyError, TypeError, ValueError)` catches. -/
def recordErrors (k : ExcKind) : Bool := k = .keyError || k = .typeError || k.isValueError

/-- One iteration of the loop of `_load_records`. -/
def loadRecord (item : Json) : Result DelegationRecord :=
  catchBuiltin recordErrors (readRecord item) fun t =>
    raise .provenanceLinkBroken (lit "malformed provenance record") (some t)

/-- `_load_records`, for a path shown as `path`. -/
def loadRecords (path : Str) : DagFile → Result (List DelegationRecord)
  | .missing => raise .provenanceLinkBroken (lit "dag file not found: " ++ path)
  | .notJson text => raise .provenanceLinkBroken (lit "invalid JSON in " ++ path) (some text)
  | .unreadable e => .error e
  | .document data =>
    let records := match data with
      | .obj d => (Dict.get? d (lit "records")).getD data
      | _ => data
    match records with
    | .arr items => items.mapM loadRecord
    | _ => raise .provenanceLinkBroken (lit "dag document must be a list or \x7b\"records\": [...]\x7d")

/-! ## What each key holds -/

/-- The dictionary holds the record, field by field. -/
structure RecordFields (r : DelegationRecord) (d : Dict Json) : Prop where
  recordId : Dict.get? d (lit "record_id") = some (.str r.recordId)
  credentialId : Dict.get? d (lit "credential_id") = some (.str r.credentialId)
  subject : Dict.get? d (lit "subject") = some (.str r.subject)
  scope : Dict.get? d (lit "scope") = some (strArr (sortedStrs r.scope))
  parentRecordHash : Dict.get? d (lit "parent_record_hash") = some (optStr r.parentRecordHash)
  callerAttestation : Dict.get? d (lit "caller_attestation") = some (.str r.callerAttestation.text)
  decision : Dict.get? d (lit "decision") = if r.decision = lit "allow" then none else some (.str r.decision)
  requestedCapability : Dict.get? d (lit "requested_capability") = r.requestedCapability.map .str
  effectiveScope : Dict.get? d (lit "effective_scope") = r.effectiveScope.map fun s => strArr (sortedStrs s)
  denialReason : Dict.get? d (lit "denial_reason") = r.denialReason.map .str

omit [Interp] in
theorem recordFields_body (r : DelegationRecord) : RecordFields r (recordItems r) where
  recordId := rfl
  credentialId := rfl
  subject := rfl
  scope := rfl
  parentRecordHash := rfl
  callerAttestation := rfl
  decision := by simp [recordItems, DelegationRecord.body, Dict.get?_append, Dict.get?_cons, get?_optField]
  requestedCapability := by simp [recordItems, DelegationRecord.body, Dict.get?_append, Dict.get?_cons, get?_optField]
  effectiveScope := by simp [recordItems, DelegationRecord.body, Dict.get?_append, Dict.get?_cons, get?_optField]
  denialReason := by simp [recordItems, DelegationRecord.body, Dict.get?_append, Dict.get?_cons, get?_optField]

omit [Interp] in
/-- Dictionaries that agree at the keys of a record hold the same record. -/
theorem RecordFields.congr {r : DelegationRecord} {d e : Dict Json} (h : RecordFields r d)
    (heq : ∀ k, k ≠ lit "record_hash" → Dict.get? e k = Dict.get? d k) : RecordFields r e where
  recordId := (heq _ (by decide)).trans h.recordId
  credentialId := (heq _ (by decide)).trans h.credentialId
  subject := (heq _ (by decide)).trans h.subject
  scope := (heq _ (by decide)).trans h.scope
  parentRecordHash := (heq _ (by decide)).trans h.parentRecordHash
  callerAttestation := (heq _ (by decide)).trans h.callerAttestation
  decision := (heq _ (by decide)).trans h.decision
  requestedCapability := (heq _ (by decide)).trans h.requestedCapability
  effectiveScope := (heq _ (by decide)).trans h.effectiveScope
  denialReason := (heq _ (by decide)).trans h.denialReason

omit [Interp] in
theorem ofText?_text (value : CallerAttestation) : CallerAttestation.ofText? value.text = some value := by
  cases value <;> rfl

theorem textSet_strArr (s : Finset Str) : textSet (strArr (sortedStrs s)) = .ok s := by
  have htext : (sortedStrs s).map (Json.text ∘ Json.str) = sortedStrs s := List.map_id _
  simp only [textSet, strArr, iterItems, ok_bind, List.map_map, htext]
  rw [sortedStrs, Finset.sort_toFinset]

theorem textOrNone_optStr (o : Option Str) : textOrNone (optStr o) = o := by
  cases o <;> rfl

theorem text_str (s : Str) : (Json.str s).text = s := rfl

/-- **The record is what the keys hold.** -/
theorem RecordFields.read {r : DelegationRecord} {d : Dict Json} (h : RecordFields r d) :
    loadRecord (.obj d) = .ok r := by
  have heffective : textSetOrNone ((r.effectiveScope.map fun s => strArr (sortedStrs s)).getD .null) =
      .ok r.effectiveScope := by
    cases r.effectiveScope with
    | none => rfl
    | some s =>
      change (do let set ← textSet (strArr (sortedStrs s)); .ok (some set)) = _
      rw [textSet_strArr]
      rfl
  have hdecision : ((if r.decision = lit "allow" then none else some (Json.str r.decision)).getD
      (.str (lit "allow"))).text = r.decision := by
    split
    · rename_i hallow
      rw [hallow]
      rfl
    · rfl
  have hcapability : textOrNone ((r.requestedCapability.map .str).getD .null) = r.requestedCapability := by
    cases r.requestedCapability <;> rfl
  have hreason : textOrNone ((r.denialReason.map .str).getD .null) = r.denialReason := by
    cases r.denialReason <;> rfl
  simp only [loadRecord, readRecord, subscript, getDefault, h.recordId, h.credentialId, h.subject, h.scope,
    h.parentRecordHash, h.callerAttestation, h.decision, h.requestedCapability, h.effectiveScope, h.denialReason, ok_bind,
    textSet_strArr, heffective, hdecision, hcapability, hreason, Option.getD_some, textOrNone_optStr, text_str,
    ofText?_text, catchBuiltin]

end

/-! ## What is written -/

/-- An item of a DAG file that was written for the record: its body or its wire form, the keys in any order. -/
def Written [Interp] [Crypto] (r : DelegationRecord) (item : Json) : Prop :=
  ∃ d, item = .obj d ∧ (d.Perm (recordItems r) ∨ ∃ wire, recordToDict r = .ok wire ∧ d.Perm wire.items)

section
variable [Interp] [Crypto]

theorem recordToDict_ok_iff {r : DelegationRecord} {wire : JsonDict} :
    recordToDict r = .ok wire ↔ ∃ hash, r.recordHash = .ok hash ∧
      wire.items = Dict.set (recordItems r) (lit "record_hash") (.str hash) := by
  rw [recordToDict, bind_ok_iff]
  constructor
  · intro h
    obtain ⟨hash, hhash, h⟩ := h
    cases h
    exact ⟨hash, hhash, rfl⟩
  · intro h
    obtain ⟨hash, hhash, h⟩ := h
    obtain ⟨items, wf⟩ := wire
    cases h
    exact ⟨hash, hhash, rfl⟩

/-- What is written holds the record, and no key twice. -/
theorem Written.fields {r : DelegationRecord} {item : Json} (h : Written r item) :
    ∃ d, item = .obj d ∧ (Json.obj d).WF ∧ RecordFields r d := by
  obtain ⟨d, rfl, hd⟩ := h
  have hperm : ∀ e : Dict Json, (Json.obj e).WF → d.Perm e → (Json.obj d).WF ∧ ∀ k, Dict.get? d k = Dict.get? e k := by
    intro e he hde
    obtain ⟨hkeys, hvalues⟩ := Json.wf_obj.mp he
    have hdkeys : (Dict.keys d).Nodup := (hde.map _).nodup_iff.mpr hkeys
    exact ⟨Json.wf_obj.mpr ⟨hdkeys, fun kv hkv => hvalues kv (hde.mem_iff.mp hkv)⟩, Dict.get?_perm hdkeys hde⟩
  rcases hd with hbody | hwire
  · obtain ⟨hwf, hget⟩ := hperm _ r.wf_body hbody
    exact ⟨d, rfl, hwf, (recordFields_body r).congr fun k _ => hget k⟩
  · obtain ⟨wire, hwire, hd⟩ := hwire
    obtain ⟨hwf, hget⟩ := hperm _ wire.wf hd
    obtain ⟨hash, _, hitems⟩ := recordToDict_ok_iff.mp hwire
    refine ⟨d, rfl, hwf, (recordFields_body r).congr fun k hk => ?_⟩
    rw [hget, hitems, Dict.get?_set_other _ _ hk]

/-- What is written for a record whose texts can be encoded survives a text. -/
theorem Written.printable {r : DelegationRecord} {item : Json} (h : Written r item) (hc : Canonical r.body) :
    Canonical item ∧ item.WF := by
  obtain ⟨d, heq, hwf, _⟩ := h.fields
  obtain ⟨d', rfl, hd⟩ := h
  refine ⟨?_, by rw [heq]; exact hwf⟩
  have hbody := canonical_obj.mp hc
  rw [canonical_obj]
  intro kv hkv
  rcases hd with hd | hwire
  · exact hbody kv (hd.mem_iff.mp hkv)
  · obtain ⟨wire, hwire, hd⟩ := hwire
    obtain ⟨hash, hhash, hitems⟩ := recordToDict_ok_iff.mp hwire
    have hnew : lit "record_hash" ∉ Dict.keys (recordItems r) := by
      rw [← Dict.get?_eq_none_iff]
      simp [recordItems, DelegationRecord.body, Dict.get?_append, Dict.get?_cons, get?_optField]
    have hmem := hd.mem_iff.mp hkv
    rw [hitems, Dict.set_of_not_mem hnew, List.mem_append, List.mem_singleton] at hmem
    rcases hmem with hmem | rfl
    · exact hbody kv hmem
    · obtain ⟨hash', hhash', hclean⟩ := DelegationRecord.exists_recordHash hc
      cases hhash.symm.trans hhash'
      exact ⟨clean_lit _, canonical_str.mpr hclean⟩

/-! ## Files -/

/-- What is written for the records, one item each, is read back as the records. -/
theorem mapM_loadRecord {records : List DelegationRecord} {items : List Json} (h : List.Forall₂ Written records items) :
    items.mapM loadRecord = .ok records := by
  refine mapM_ok_iff.mpr (h.flip.imp ?_)
  intro item r (hwritten : Written r item)
  obtain ⟨d, rfl, _, hfields⟩ := hwritten.fields
  exact hfields.read

/-- The items of a DAG document: a list, or a dictionary that holds it as `records`. -/
def DagDocument (items : List Json) (data : Json) : Prop :=
  data = .arr items ∨ ∃ d, data = .obj d ∧ Dict.get? d (lit "records") = some (.arr items)

theorem loadRecords_document {records : List DelegationRecord} {items : List Json}
    (h : List.Forall₂ Written records items) {data : Json} (hdata : DagDocument items data) (path : Str) :
    loadRecords path (.document data) = .ok records := by
  rcases hdata with rfl | hdata
  · exact mapM_loadRecord h
  · obtain ⟨d, rfl, hitems⟩ := hdata
    simp only [loadRecords, hitems, Option.getD_some]
    exact mapM_loadRecord h

/-- A document of records whose texts can be encoded survives a text. -/
theorem printable_document {records : List DelegationRecord} {items : List Json} (h : List.Forall₂ Written records items)
    (hc : ∀ r ∈ records, Canonical r.body) :
    Printable (.arr items) ∧ Printable (.obj [(lit "records", .arr items)]) := by
  have hitem : ∀ item ∈ items, Canonical item ∧ item.WF := by
    intro item hitem
    obtain ⟨r, hr, hwritten⟩ := forall₂_mem_left h.flip hitem
    exact Written.printable hwritten (hc r hr)
  have hcanonical : Canonical (.arr items) := canonical_arr.mpr fun item hi => (hitem item hi).1
  have hwf : (Json.arr items).WF := Json.wf_arr.mpr fun item hi => (hitem item hi).2
  refine ⟨hcanonical.printable hwf, Canonical.printable ?_ ?_⟩
  · simpa using canonical_arr.mp hcanonical
  · simpa [Dict.keys] using Json.wf_arr.mp hwf

/-- **Record files preserve hashes.** What is written for a record, its body or its wire form in any
order of keys, is read back as the record, whose hash is the one the wire form advertises; so the
records of a document are those it was written from, and a list the walk accepts it accepts again.
The text of a document decodes to the document when the records can be hashed. -/
theorem loadRecords_written :
    (∀ r item, Written r item → loadRecord item = .ok r) ∧
    (∀ r wire, recordToDict r = .ok wire →
      ∃ hash, r.recordHash = .ok hash ∧ Dict.get? wire.items (lit "record_hash") = some (.str hash)) ∧
    ∀ (path : Str) records items, List.Forall₂ Written records items →
      (∀ data, DagDocument items data →
        loadRecords path (.document data) = .ok records ∧
        ∀ accepted, verifyDag records = .ok accepted →
          (loadRecords path (.document data) >>= verifyDag) = .ok accepted) ∧
      ((∀ r ∈ records, ∃ hash, r.recordHash = .ok hash) → ∀ st : Style, st.Reads →
        loads (ε := CA2AError) dictHook (st.print (.arr items)) = .ok (.arr items) ∧
        loads (ε := CA2AError) dictHook (st.print (.obj [(lit "records", .arr items)])) =
          .ok (.obj [(lit "records", .arr items)])) := by
  refine ⟨?_, ?_, ?_⟩
  · intro r item hwritten
    obtain ⟨d, rfl, _, hfields⟩ := hwritten.fields
    exact hfields.read
  · intro r wire hwire
    obtain ⟨hash, hhash, hitems⟩ := recordToDict_ok_iff.mp hwire
    exact ⟨hash, hhash, by rw [hitems, Dict.get?_set_self]⟩
  · intro path records items hwritten
    refine ⟨?_, ?_⟩
    · intro data hdata
      have hload := loadRecords_document hwritten hdata path
      refine ⟨hload, fun accepted haccepted => ?_⟩
      rw [hload]
      exact haccepted
    · intro hhashed st hst
      have hc : ∀ r ∈ records, Canonical r.body := by
        intro r hr
        obtain ⟨hash, hhash⟩ := hhashed r hr
        rw [DelegationRecord.recordHash, bind_ok_iff] at hhash
        obtain ⟨msg, hmsg, _⟩ := hhash
        exact exists_canonicalize_iff.mp ⟨msg, hmsg⟩
      obtain ⟨hlist, hobject⟩ := printable_document hwritten hc
      exact ⟨loads_print hst dictHook dictHook_nodup hlist, loads_print hst dictHook dictHook_nodup hobject⟩

end

/-- A refusal under an empty scope. -/
def refusedRecord : DelegationRecord where
  recordId := lit "r0"
  credentialId := lit "c0"
  subject := lit "s0"
  scope := {lit "read"}
  decision := lit "deny"
  requestedCapability := some (lit "write")
  effectiveScope := some ∅
  denialReason := some (lit "out of scope")
  callerAttestation := .hardware

theorem refusedRecord_canonical : Canonical refusedRecord.body := by
  rw [DelegationRecord.canonical_body_iff]
  simp [refusedRecord, clean_lit]

/-- The refusal, written with its keys in reverse and read back from a file. -/
theorem loadRecords_refusedRecord :
    let _ := Interp.ascii
    let _ := Crypto.toy
    loadRecord (.obj (recordItems refusedRecord).reverse) = .ok refusedRecord ∧
      (∃ wire hash, recordToDict refusedRecord = .ok wire ∧ refusedRecord.recordHash = .ok hash ∧
        Dict.get? wire.items (lit "record_hash") = some (.str hash)) ∧
      (loadRecords (lit "dag.json") (.document (.arr [.obj (recordItems refusedRecord).reverse])) >>= verifyDag) =
        .ok [refusedRecord] ∧
      loads (ε := CA2AError) dictHook (dumps (.arr [.obj (recordItems refusedRecord).reverse])) =
        .ok (.arr [.obj (recordItems refusedRecord).reverse]) := by
  intro _ _
  obtain ⟨hitem, hwire, hfile⟩ := loadRecords_written
  have hwritten : Written refusedRecord (.obj (recordItems refusedRecord).reverse) :=
    ⟨_, rfl, .inl (List.reverse_perm _)⟩
  obtain ⟨hash, hhash, _⟩ := DelegationRecord.exists_recordHash refusedRecord_canonical
  obtain ⟨hload, htext⟩ := hfile (lit "dag.json") [refusedRecord] [.obj (recordItems refusedRecord).reverse]
    (.cons hwritten .nil)
  refine ⟨hitem _ _ hwritten, ?_, (hload _ (.inl rfl)).2 _ rfl, (htext ?_ dumpsStyle dumpsStyle_reads).1⟩
  · have hdict : recordToDict refusedRecord =
        .ok ⟨Dict.set (recordItems refusedRecord) (lit "record_hash") (.str hash),
          refusedRecord.wf_body.set _ (Json.wf_str hash)⟩ := by
      rw [recordToDict, hhash]
      rfl
    obtain ⟨hash', hhash', hget⟩ := hwire _ _ hdict
    exact ⟨_, hash', hdict, hhash', hget⟩
  · intro r hr
    cases List.mem_singleton.mp hr
    exact ⟨hash, hhash⟩

end Ca2a
