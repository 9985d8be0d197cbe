/-
The wire form of revocation statements and snapshots:
`RevocationStatement.from_dict`, `RevocationSnapshot.from_dict`, the two
constructors behind them, and `to_dict` of both.

Reading is strict. A statement that is accepted has exactly the fields of
its own wire form (`RevocationStatement.fromDict_spec`), and the snapshot
keeps every statement it was given, each with a signature of its revoker;
one that is malformed, unsigned or forged refuses the whole.

Python's limit on recursion is not modelled.
-/
import Ca2a.Adapter
import Ca2a.ChainRevocation
import Ca2a.Contained

namespace Ca2a

open Py

/-! ## Fields -/

/-- `_STATEMENT_FIELDS` -/
def statementFields : Finset Str :=
  {lit "type", lit "revoked_digest", lit "revoker", lit "issued_at", lit "signature"}

/-- `_SNAPSHOT_FIELDS` -/
def snapshotFields : Finset Str := {lit "as_of", lit "revocations"}

/-- A string of which `p` holds, or the field's own error. -/
def matchedField (p : Str → Bool) (message : String) : Json → Result { s : Str // p s = true }
  | .str s => if h : p s = true then .ok ⟨s, h⟩ else raise .invalidRevocation (lit message)
  | _ => raise .invalidRevocation (lit message)

/-- A number that `_non_negative_int` admits, or the field's own error. -/
def countField (message : String) : Json → Result Nat
  | .int (.ofNat n) => .ok n
  | _ => raise .invalidRevocation (lit message)

section
variable [Interp]

/-- The fields are exactly those, or the error names what is missing and what is unknown. -/
def exactFields (fields : Finset Str) (message : String) (d : Dict Json) : Result Unit :=
  let unknown := (Dict.keys d).toFinset \ fields
  let missing := fields \ (Dict.keys d).toFinset
  if unknown ≠ ∅ ∨ missing ≠ ∅ then
    raise .invalidRevocation (lit message)
      (some (lit "missing=" ++ reprList (sortedStrs missing) ++ lit " unknown=" ++ reprList (sortedStrs unknown)))
  else .ok ()

/-! ## Statements -/

namespace RevocationStatement

omit [Interp] in
/-- `RevocationStatement(...)`, with the checks of `__post_init__`. -/
def create (revokedDigest revoker issuedAt : Json) (signature : Str) : Result RevocationStatement := do
  let revokedDigest ← matchedField isDigest "revoked_digest must be sha256: followed by 64 lowercase hex" revokedDigest
  let revoker ← matchedField (isLowerHex 64) "revoker must be a lowercase 32-byte Ed25519 key in hex" revoker
  let issuedAt ← countField "issued_at must be a non-negative integer" issuedAt
  .ok
    { revokedDigest := revokedDigest.1
      revoker := revoker.1
      issuedAt
      signature
      digestOk := revokedDigest.2
      revokerOk := revoker.2 }

omit [Interp] in
/-- `RevocationStatement.to_dict` -/
def toDict (s : RevocationStatement) : Dict Json := Dict.set (itemsOf (some s.body)) (lit "signature") (.str s.signature)

/-- `RevocationStatement.from_dict` -/
def fromDict : Json → Result RevocationStatement
  | .obj d => do
    exactFields statementFields "malformed revocation fields" d
    -- every field is present here, so no subscript fails
    let field := fun (k : String) => (Dict.get? d (lit k)).getD .null
    if (field "type").str? ≠ some revocationType then
      raise .invalidRevocation (lit "unsupported revocation type") (some (lit "type=" ++ (field "type").repr))
    else
      match field "signature" with
      | .str signature => create (field "revoked_digest") (field "revoker") (field "issued_at") signature
      | _ => raise .invalidRevocation (lit "signature must be a string")
  | _ => raise .invalidRevocation (lit "revocation statement must be a JSON object")

end RevocationStatement

/-! ## Snapshots -/

variable [Crypto]

namespace RevocationSnapshot

/-- The check of the statement at position `i`. -/
def checkStatement (i : Nat) (s : RevocationStatement) : Result Unit :=
  catchClass .invalidRevocation s.verifySignature fun exc =>
    raise .invalidRevocation
      (lit "revocation " ++ decimal i ++ lit " does not verify; the snapshot is refused as a whole")
      (some (match exc.detail with
        | none => exc.message
        | some detail => exc.message ++ lit ": " ++ detail))

/-- The loop of `__post_init__`, from position `i` on. -/
def checkStatements : Nat → List RevocationStatement → Result Unit
  | _, [] => .ok ()
  | i, s :: rest => do
    checkStatement i s
    checkStatements (i + 1) rest

theorem checkStatements_ok_iff {i : Nat} {statements : List RevocationStatement} :
    checkStatements i statements = .ok () ↔ ∀ s ∈ statements, s.verifySignature = .ok () := by
  induction statements generalizing i with
  | nil => simp [checkStatements]
  | cons s rest ih =>
    rw [checkStatements, bind_unit_ok_iff, ih, checkStatement, catchClass_ok_iff (by simp), List.forall_mem_cons]

/-- `RevocationSnapshot(...)`, with the checks of `__post_init__`. -/
def create (asOf : Json) (statements : List RevocationStatement) : Result RevocationSnapshot := do
  let asOf ← countField "as_of must be a non-negative integer" asOf
  match h : checkStatements 0 statements with
  | .ok () => .ok { asOf, statements, verified := checkStatements_ok_iff.mp h }
  | .error e => .error e

/-- `RevocationSnapshot.to_dict` -/
def toDict (snap : RevocationSnapshot) : Dict Json :=
  [(lit "as_of", .int snap.asOf), (lit "revocations", .arr (snap.statements.map fun s => .obj s.toDict))]

/-- `RevocationSnapshot.from_dict` -/
def fromDict : Json → Result RevocationSnapshot
  | .obj d => do
    exactFields snapshotFields "malformed revocation snapshot fields" d
    match (Dict.get? d (lit "revocations")).getD .null with
    | .arr items => do
      let statements ← items.mapM RevocationStatement.fromDict
      create ((Dict.get? d (lit "as_of")).getD .null) statements
    | _ => raise .invalidRevocation (lit "revocations must be an array")
  | _ => raise .invalidRevocation (lit "revocation snapshot must be a JSON object")

end RevocationSnapshot

/-! ## What is read -/

omit [Interp] [Crypto] in
theorem matchedField_spec (p : Str → Bool) (message : String) (j : Json) :
    Spec (matchedField p message j) (fun s => j = .str s.1) (Exc.isClass .invalidRevocation) := by
  unfold matchedField
  split
  · split
    · rfl
    · exact rfl
  · exact rfl

omit [Interp] [Crypto] in
theorem matchedField_str {p : Str → Bool} {s : Str} (h : p s = true) (message : String) :
    matchedField p message (.str s) = .ok ⟨s, h⟩ := dif_pos h

omit [Interp] [Crypto] in
theorem countField_spec (message : String) (j : Json) :
    Spec (countField message j) (fun n => j = .int n) (Exc.isClass .invalidRevocation) := by
  unfold countField
  split
  · rfl
  · exact rfl

omit [Interp] [Crypto] in
theorem countField_int (message : String) (n : Nat) : countField message (.int n) = .ok n := rfl

omit [Crypto] in
theorem exactFields_spec (fields : Finset Str) (message : String) (d : Dict Json) :
    Spec (exactFields fields message d) (fun _ => (Dict.keys d).toFinset = fields) (Exc.isClass .invalidRevocation) := by
  unfold exactFields
  dsimp only
  split
  · exact rfl
  · rename_i h
    simp only [ne_eq, not_or, not_not, Finset.sdiff_eq_empty_iff_subset] at h
    exact h.1.antisymm h.2

omit [Crypto] in
theorem exactFields_ok {fields : Finset Str} {d : Dict Json} (h : (Dict.keys d).toFinset = fields) (message : String) :
    exactFields fields message d = .ok () := by
  simp [exactFields, h]

omit [Interp] [Crypto] in
/-- A field that is there is what its subscript gives. -/
theorem get?_of_exactFields {fields : Finset Str} {d : Dict Json} (h : (Dict.keys d).toFinset = fields) {k : Str}
    (hk : k ∈ fields) : Dict.get? d k = some ((Dict.get? d k).getD .null) :=
  Dict.get?_of_mem_keys (List.mem_toFinset.mp (h ▸ hk)) .null

omit [Interp] [Crypto] in
/-- Dictionaries with the same fields that agree on each of them agree everywhere. -/
theorem get?_eq_of_fields {fields : Finset Str} {d e : Dict Json} (hd : (Dict.keys d).toFinset = fields)
    (he : (Dict.keys e).toFinset = fields) (h : ∀ k ∈ fields, Dict.get? d k = Dict.get? e k) (k : Str) :
    Dict.get? d k = Dict.get? e k := by
  by_cases hk : k ∈ fields
  · exact h k hk
  · have hnone : ∀ {f : Dict Json}, (Dict.keys f).toFinset = fields → Dict.get? f k = none := fun hf =>
      Dict.get?_eq_none_iff.mpr fun hmem => hk (hf ▸ List.mem_toFinset.mpr hmem)
    rw [hnone hd, hnone he]

namespace RevocationStatement

omit [Interp] [Crypto] in
theorem toDict_eq (s : RevocationStatement) :
    s.toDict = [(lit "type", .str revocationType), (lit "revoked_digest", .str s.revokedDigest),
      (lit "revoker", .str s.revoker), (lit "issued_at", .int s.issuedAt), (lit "signature", .str s.signature)] := by
  simp [toDict, itemsOf, body, Dict.set]

omit [Interp] [Crypto] in
theorem keys_toDict (s : RevocationStatement) : (Dict.keys s.toDict).toFinset = statementFields := by
  rw [toDict_eq]
  simp only [Dict.keys, List.map_cons, List.map_nil]
  rfl

/-- The statement is signed by its revoker over its canonical body, with a signature written in full. -/
def Signed (s : RevocationStatement) : Prop := isLowerHex 128 s.signature = true ∧ SignedBy s.revoker s.signature s.body

omit [Crypto] [Interp] in
theorem noFloat_body (s : RevocationStatement) : s.body.NoFloat := by simp [body]

theorem verifySignature_ok_iff {s : RevocationStatement} : s.verifySignature = .ok () ↔ s.Signed := by
  unfold verifySignature Signed
  split
  · rename_i hs
    simp [hs, isLowerHex]
  · split
    · rename_i hhex
      simp [hhex]
    · rename_i hhex
      rw [catchBuiltin_ok_iff (by simp), edCheck_ok_iff]
      simp [hhex]

theorem verifySignature_spec (s : RevocationStatement) :
    Spec s.verifySignature (fun _ => True) (Exc.isClass .invalidRevocation) := by
  unfold verifySignature
  split
  · exact rfl
  · split
    · exact rfl
    · exact catchBuiltin_spec ((edCheck_spec s.noFloat_body).mono (fun _ h => h) fun _ h => .inr h) fun _ => rfl

omit [Interp] [Crypto] in
theorem create_spec (revokedDigest revoker issuedAt : Json) (signature : Str) :
    Spec (create revokedDigest revoker issuedAt signature)
      (fun s => revokedDigest = .str s.revokedDigest ∧ revoker = .str s.revoker ∧ issuedAt = .int s.issuedAt ∧
        s.signature = signature) (Exc.isClass .invalidRevocation) := by
  refine (matchedField_spec _ _ _).bind fun digest hdigest => (matchedField_spec _ _ _).bind fun key hkey =>
    (countField_spec _ _).bind fun count hcount => ?_
  exact ⟨hdigest, hkey, hcount, rfl⟩

omit [Crypto] in
/-- What `from_dict` accepts is the wire form of what it returns. -/
theorem fromDict_spec (j : Json) :
    Spec (fromDict j) (fun s => ∃ d, j = .obj d ∧ ∀ k, Dict.get? d k = Dict.get? s.toDict k)
      (Exc.isClass .invalidRevocation) := by
  unfold fromDict
  split
  · rename_i d
    refine (exactFields_spec _ _ _).bind fun _ hfields => ?_
    dsimp only
    split
    · exact rfl
    rename_i htype
    simp only [ne_eq, not_not, Json.str?_eq_some_iff] at htype
    split
    · rename_i signature hsignature
      refine (create_spec _ _ _ _).mono (fun s hs => ?_) fun _ h => h
      obtain ⟨hdigest, hrevoker, hissued, rfl⟩ := hs
      refine ⟨d, rfl, get?_eq_of_fields hfields s.keys_toDict fun k hk => ?_⟩
      rw [get?_of_exactFields hfields hk, s.toDict_eq]
      simp only [statementFields, Finset.mem_insert, Finset.mem_singleton] at hk
      rcases hk with rfl | rfl | rfl | rfl | rfl
      · simp [htype, Dict.get?_cons]
      · simp [hdigest, Dict.get?_cons]
      · simp [hrevoker, Dict.get?_cons]
      · simp [hissued, Dict.get?_cons]
      · simp [hsignature, Dict.get?_cons]
    · exact rfl
  · exact rfl

omit [Crypto] in
theorem fromDict_toDict (s : RevocationStatement) : fromDict (.obj s.toDict) = .ok s := by
  rw [fromDict, exactFields_ok s.keys_toDict]
  simp [s.toDict_eq, Dict.get?_cons, create, matchedField_str s.digestOk, matchedField_str s.revokerOk, Json.str?, countField_int]

end RevocationStatement

namespace RevocationSnapshot

theorem checkStatements_spec (i : Nat) (statements : List RevocationStatement) :
    Spec (checkStatements i statements) (fun _ => True) (Exc.isClass .invalidRevocation) := by
  induction statements generalizing i with
  | nil => exact trivial
  | cons s rest ih =>
    have hcheck : Spec (checkStatement i s) (fun _ => True) (Exc.isClass .invalidRevocation) :=
      catchClass_spec (s.verifySignature_spec.mono (fun _ h => h) fun _ h => .inr h) fun _ => rfl
    exact hcheck.bind fun _ _ => ih _

theorem create_spec (asOf : Json) (statements : List RevocationStatement) :
    Spec (create asOf statements) (fun snap => asOf = .int snap.asOf ∧ snap.statements = statements)
      (Exc.isClass .invalidRevocation) := by
  refine (countField_spec _ _).bind fun count hcount => ?_
  split
  · exact ⟨hcount, rfl⟩
  · rename_i e h
    exact (checkStatements_spec 0 statements).of_error h

theorem create_ok (snap : RevocationSnapshot) : create (.int snap.asOf) snap.statements = .ok snap := by
  have hok : checkStatements 0 snap.statements = .ok () := checkStatements_ok_iff.mpr snap.verified
  rw [create, countField_int, ok_bind]
  split
  · rfl
  · rename_i e h
    cases h.symm.trans hok

/-- The item is a statement that is well formed and signed by its revoker. -/
def SignedStatement (item : Json) : Prop := ∃ s, RevocationStatement.fromDict item = .ok s ∧ s.Signed

/-- What was read of the item: the statement it says, with exactly its fields. -/
structure Reads (item : Json) (s : RevocationStatement) : Prop where
  parsed : RevocationStatement.fromDict item = .ok s
  fields : ∃ d, item = .obj d ∧ ∀ k, Dict.get? d k = Dict.get? s.toDict k
  signed : s.Signed

/-- What was read of the document: all its statements, in order. -/
def Holds (data : Json) (snap : RevocationSnapshot) : Prop :=
  ∃ d items, data = .obj d ∧ (Dict.keys d).toFinset = snapshotFields ∧
    Dict.get? d (lit "as_of") = some (.int snap.asOf) ∧ Dict.get? d (lit "revocations") = some (.arr items) ∧
    List.Forall₂ Reads items snap.statements

theorem reads_of_mapM {items : List Json} {statements : List RevocationStatement}
    (h : items.mapM RevocationStatement.fromDict = .ok statements) (hs : ∀ s ∈ statements, s.verifySignature = .ok ()) :
    List.Forall₂ Reads items statements := by
  have hparsed := mapM_ok_iff.mp h
  clear h
  induction hparsed with
  | nil => exact .nil
  | cons hitem _ ih =>
    obtain ⟨hverified, hrest⟩ := List.forall_mem_cons.mp hs
    refine .cons ⟨hitem, ?_, RevocationStatement.verifySignature_ok_iff.mp hverified⟩ (ih hrest)
    exact (RevocationStatement.fromDict_spec _).of_ok hitem

/-- **What `from_dict` accepts**: every statement, in order, read and signed; anything else raises `InvalidRevocation`. -/
theorem fromDict_spec (data : Json) : Spec (fromDict data) (Holds data) (Exc.isClass .invalidRevocation) := by
  unfold fromDict
  split
  · rename_i d
    refine (exactFields_spec _ _ _).bind fun _ hfields => ?_
    split
    · rename_i items hitems
      cases hparsed : items.mapM RevocationStatement.fromDict with
      | error e =>
        exact (Spec.mapM fun item _ => (RevocationStatement.fromDict_spec item).mono (fun _ _ => trivial) fun _ h => h).of_error
          hparsed
      | ok statements =>
        rw [ok_bind]
        refine (create_spec _ _).mono (fun snap hsnap => ?_) fun _ h => h
        obtain ⟨hasOf, rfl⟩ := hsnap
        refine ⟨d, items, rfl, hfields, ?_, ?_, ?_⟩
        · rw [get?_of_exactFields hfields (by decide), hasOf]
        · rw [get?_of_exactFields hfields (by decide), hitems]
        · exact reads_of_mapM hparsed snap.verified
    · exact rfl
  · exact rfl

/-- One statement that is malformed, unsigned or forged refuses the whole snapshot. -/
theorem fromDict_refuses {d : Dict Json} {items : List Json} (hitems : Dict.get? d (lit "revocations") = some (.arr items))
    {item : Json} (hitem : item ∈ items) (hbad : ¬ SignedStatement item) :
    ∃ e, fromDict (.obj d) = .error e ∧ e.isClass .invalidRevocation := by
  cases h : fromDict (.obj d) with
  | error e => exact ⟨e, rfl, (fromDict_spec (.obj d)).of_error h⟩
  | ok snap =>
    obtain ⟨d', items', hd, _, _, hitems', hreads⟩ := (fromDict_spec (.obj d)).of_ok h
    obtain rfl : d = d' := Json.obj.inj hd
    obtain rfl : items = items' := Json.arr.inj (Option.some.inj (hitems.symm.trans hitems'))
    obtain ⟨s, _, hs⟩ := forall₂_mem_left hreads hitem
    exact absurd ⟨s, hs.parsed, hs.signed⟩ hbad

theorem fromDict_toDict (snap : RevocationSnapshot) : fromDict (.obj snap.toDict) = .ok snap := by
  have hparse : (snap.statements.map fun s => .obj s.toDict).mapM RevocationStatement.fromDict = .ok snap.statements := by
    rw [List.mapM_map]
    refine (mapM_ok (g := id) fun s _ => ?_).trans (by rw [List.map_id])
    exact s.fromDict_toDict
  have hkeys : (Dict.keys snap.toDict).toFinset = snapshotFields := rfl
  rw [fromDict, exactFields_ok hkeys, ok_bind]
  simp only [toDict, Dict.get?_cons]
  simp [hparse, create_ok]

/-- **Snapshots are read as a whole.** What is read keeps every statement in order, each signed by its revoker, and whatever
else happens is `InvalidRevocation`; one bad statement refuses all; a snapshot comes back from its wire form; and a
statement is looked up through the index as by a search of the statements in order. -/
theorem snapshot_wireForm :
    (∀ data : Json, Spec (fromDict data) (Holds data) (Exc.isClass .invalidRevocation)) ∧
    (∀ (d : Dict Json) (items : List Json), Dict.get? d (lit "revocations") = some (.arr items) →
      ∀ item ∈ items, ¬ SignedStatement item → ∃ e, fromDict (.obj d) = .error e ∧ e.isClass .invalidRevocation) ∧
    (∀ snap : RevocationSnapshot, fromDict (.obj snap.toDict) = .ok snap) ∧
    ∀ (snap : RevocationSnapshot) (digest : Str) (authorized : Finset Str) (atTime : Option Int),
      snap.effectiveRevocation digest authorized atTime =
        snap.statements.find? fun s => decide (s.revokedDigest = digest) && inForce authorized atTime s :=
  ⟨fromDict_spec, fun _ _ hitems _ hitem hbad => fromDict_refuses hitems hitem hbad, fromDict_toDict,
    effectiveRevocation_eq⟩

end RevocationSnapshot

end

/-- The snapshot that holds the withdrawal of the grant comes back. -/
theorem RevocationSnapshot.snapshot_wireForm_withdrawn :
    let _ := Interp.ascii
    let _ := Crypto.wireDigest
    fromDict (.obj (withdrawn 10 1 (some 10) (by decide)).toDict) = .ok (withdrawn 10 1 (some 10) (by decide)) := by
  intro _ _
  exact snapshot_wireForm.2.2.1 (withdrawn 10 1 (some 10) (by decide))

end Ca2a
