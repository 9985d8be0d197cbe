/-
Signed lineage: what stands once the chain, the records and their check against
each other have all been accepted.

The verifier of the records and the check against the chain each read the key
of a record from the record itself. That they mean one key is what connects
them: `recordJwk` is a function of the record, so the key that was verified is
the key that was compared with the subject.
-/
import Ca2a.TraceEmission

namespace Ca2a

open Py

section
variable [Interp] [Crypto] [TraceLib]

/-- `verify_record` accepts only a record that the key of its JWK has signed. -/
def TraceLib.Sound (SignedWith : Bytes → Dict Json → Prop) : Prop :=
  ∀ record jwk maxAge now, TraceLib.verifyRecord record jwk maxAge now = .ok () →
    ∃ raw, jwkRaw jwk = .ok raw ∧ SignedWith raw record

omit [Interp] [Crypto] [TraceLib] in
/-- Record `i` is that of credential `i`: the subject's key signed it and, after the root, it names the credential. -/
structure RecordOf (SignedWith : Bytes → Dict Json → Prop) (i : Nat) (cred : DelegationCredential) (record : Json) :
    Prop where
  signed : ∃ d raw, record = .obj d ∧ SignedWith raw d ∧ hex raw = cred.subject
  names : 0 < i → ∃ d block, record = .obj d ∧ Dict.get? d (lit "delegation") = some (.obj block) ∧
    Dict.get? block (lit "credential_id") = some (.str cred.credentialId)

omit [Interp] [Crypto] [TraceLib] in
/-- One record for each credential, in order, and no credential twice. -/
structure Lineage (SignedWith : Bytes → Dict Json → Prop) (chain : List DelegationCredential) (records : List Json) :
    Prop where
  length_eq : records.length = chain.length
  ids_distinct : (chain.map (·.credentialId)).Nodup
  recordOf : ∀ i (h : i < records.length) (h' : i < chain.length), RecordOf SignedWith i chain[i] records[i]

omit [Interp] [Crypto] [TraceLib] in
theorem get?_of_delegationOf {d block : Dict Json} (h : delegationOf d = .obj block) :
    Dict.get? d (lit "delegation") = some (.obj block) := by
  rw [delegationOf] at h
  cases hget : Dict.get? d (lit "delegation") with
  | none =>
    rw [hget] at h
    cases h
  | some j =>
    rw [hget] at h
    exact congrArg some h

omit [Crypto] [TraceLib] in
theorem crossCheckTraceDag_ok_iff {records : List Json} {chain : List DelegationCredential} :
    crossCheckTraceDag records chain = .ok () ↔ records.length = chain.length ∧
      ∀ i (h : i < records.length) (h' : i < chain.length), crossCheckRecord i records[i] chain[i] = .ok () := by
  rw [crossCheckTraceDag]
  by_cases hlen : records.length = chain.length
  · rw [if_neg (not_not.mpr hlen), crossCheckRecords_ok_iff]
    simp [hlen]
  · simp [hlen]

/-- A record that the verifier accepted in some turn and that passes the check against a credential is that of the
credential. -/
theorem RecordAccepted.recordOf {SignedWith : Bytes → Dict Json → Prop} (hsound : TraceLib.Sound SignedWith)
    {trusted : Finset Bytes} {maxAge : Option Int} {now : Int} {j : Nat} {prev : Option Str} {seen : Finset Str}
    {d : Dict Json} {hash : Str} {subject : Json} (h : RecordAccepted trusted maxAge now j prev seen d hash subject)
    {i : Nat} {cred : DelegationCredential} (hcheck : crossCheckRecord i (.obj d) cred = .ok ()) :
    RecordOf SignedWith i cred (.obj d) := by
  obtain ⟨hnames, jwk, raw, hjwk, hraw, hsubject⟩ := crossCheckRecord_ok_iff.mp hcheck
  obtain ⟨jwk', raw', hjwk', hraw', _, hverify⟩ := h.key
  -- both checks read the key from the record
  cases hjwk.symm.trans hjwk'
  obtain ⟨raw'', hraw'', hsigned⟩ := hsound d jwk maxAge now hverify
  cases hraw.symm.trans hraw''
  refine ⟨⟨d, raw, rfl, hsigned, hsubject⟩, fun hi => ?_⟩
  obtain ⟨block, hblock, hid⟩ := hnames hi
  exact ⟨d, block, rfl, get?_of_delegationOf hblock, hid⟩

/-- What the three verifiers establish together. -/
theorem lineage_of_accepted {SignedWith : Bytes → Dict Json → Prop} (hsound : TraceLib.Sound SignedWith)
    {chain : List DelegationCredential} {maxDepth : Int} {roots : Finset Str} {atTime : Option Int} {now : Int}
    {revocations : Option RevocationSnapshot} {staleness : Option Int} {st : RevocationStatus}
    (hchain : verifyChain chain maxDepth roots atTime now revocations staleness = .ok st) {records : List Json}
    {keys : List TrustedKey} {maxAge : Option Int} {clock : Nat → Int} {res : TraceDagResult}
    (hdag : verifyTraceDag records keys maxAge clock = .ok res) (hcross : crossCheckTraceDag records chain = .ok ()) :
    Lineage SignedWith chain records := by
  obtain ⟨hlen, hrecords⟩ := crossCheckTraceDag_ok_iff.mp hcross
  obtain ⟨_, trusted, subjects, _, hverify, _⟩ := verifyTraceDag_ok_iff.mp hdag
  have haccepted := (exists_verifyChain_iff.mp ⟨st, hchain⟩).2.2
  refine ⟨hlen, haccepted.ids_distinct, fun i h h' => ?_⟩
  have hcheck := hrecords i h h'
  obtain ⟨d, _, _, _, _, _, _, hd, hrecord⟩ := accepted_of_verifyRecords hverify (List.getElem_mem h)
  rw [hd] at hcheck ⊢
  exact hrecord.recordOf hsound hcheck

/-- `verify-lineage` returns only when the three verifiers accept the chain and the records of the document. -/
theorem accepted_of_verifyLineage {chain : List DelegationCredential} {document : Json} {maxDepth : Int}
    {roots : Finset Str} {atTime : Option Int} {now : Int} {revocations : Option RevocationSnapshot}
    {staleness maxAge : Option Int} {clock : Nat → Int} {res : TraceDagResult × RevocationStatus}
    (h : verifyLineage chain document maxDepth roots atTime now revocations staleness maxAge clock = .ok res) :
    verifyChain chain maxDepth roots atTime now revocations staleness = .ok res.2 ∧
    ∃ records keys, lineageRecords document = .ok records ∧ chain.mapM subjectKey = .ok keys ∧
      verifyTraceDag records keys maxAge clock = .ok res.1 ∧ crossCheckTraceDag records chain = .ok () := by
  simp only [verifyLineage, bind_ok_iff, Except.ok.injEq] at h
  obtain ⟨st, hchain, records, hrecords, keys, hkeys, dag, hdag, _, hcross, rfl⟩ := h
  exact ⟨hchain, records, keys, hrecords, hkeys, hdag, hcross⟩

/-- **Signed lineage is tamper-evident.** If the record hash does not collide on two lists that the verifier accepts
under any keys, and their last records are equal, the lists are equal, record by record. And whenever the chain, the
records and the check between them are accepted, as `verify-lineage` requires, the records are those of the chain: one
for each credential, signed by its subject, and naming it after the root. -/
theorem lineage_tamper_evident (SignedWith : Bytes → Dict Json → Prop) (hsound : TraceLib.Sound SignedWith) :
    (∀ records records' keys keys' maxAge maxAge' clock clock' res res',
      verifyTraceDag records keys maxAge clock = .ok res → verifyTraceDag records' keys' maxAge' clock' = .ok res' →
      CollisionFree records records' →
      (∀ leaf ∈ records.getLast?, ∀ leaf' ∈ records'.getLast?, Json.PyEq leaf leaf') →
      List.Forall₂ Json.PyEq records records') ∧
    (∀ chain maxDepth roots atTime now revocations staleness st records keys maxAge clock res,
      verifyChain chain maxDepth roots atTime now revocations staleness = .ok st →
      verifyTraceDag records keys maxAge clock = .ok res → crossCheckTraceDag records chain = .ok () →
      Lineage SignedWith chain records) ∧
    ∀ chain document maxDepth roots atTime now revocations staleness maxAge clock res,
      verifyLineage chain document maxDepth roots atTime now revocations staleness maxAge clock = .ok res →
      ∃ records, lineageRecords document = .ok records ∧ Lineage SignedWith chain records := by
  refine ⟨?_, ?_, ?_⟩
  · intro records records' keys keys' maxAge maxAge' clock clock' res res' h h' hcf hlast
    exact forall₂_of_verifyTraceDag h h' hcf hlast
  · intro chain maxDepth roots atTime now revocations staleness st records keys maxAge clock res hchain hdag hcross
    exact lineage_of_accepted hsound hchain hdag hcross
  · intro chain document maxDepth roots atTime now revocations staleness maxAge clock res h
    obtain ⟨hchain, records, keys, hrecords, _, hdag, hcross⟩ := accepted_of_verifyLineage h
    exact ⟨records, hrecords, lineage_of_accepted hsound hchain hdag hcross⟩

end

/-! ## Two hops -/

/-- The grant of `wireGrant`, passed on. -/
def onwardGrant : DelegationCredential where
  credentialId := lit "c1"
  issuer := hex (List.replicate 32 2)
  subject := hex (List.replicate 32 3)
  scope := {lit "read"}
  depth := 1
  parentId := some (lit "c0")
  signature := hex (List.replicate 32 2 ++ List.replicate 32 0)

/-- The signature of the toy library is the name of the key. -/
def toySignedWith (raw : Bytes) (record : Dict Json) : Prop :=
  (Dict.get? record (lit "signature")).bind Json.str? = some (hex raw)

theorem toy_sound :
    let _ := Interp.ascii
    let _ := Crypto.measured
    let _ := TraceLib.toy
    TraceLib.Sound toySignedWith := by
  intro _ _ _ record jwk maxAge now h
  obtain ⟨raw, hraw, h⟩ := bind_ok_iff.mp h
  refine ⟨raw, hraw, ?_⟩
  split at h
  · assumption
  · cases h

theorem lineage_toyHops :
    let _ := Interp.ascii
    let _ := Crypto.measured
    let _ := TraceLib.toy
    ∃ records, emitDag toyHops = .ok records ∧ List.Forall₂ Json.PyEq (records.map Json.obj) (records.map Json.obj) ∧
      Lineage toySignedWith [wireGrant, onwardGrant] (records.map Json.obj) := by
  intro _ _ _
  have hrun : (emitDag toyHops >>= fun records => verifyLineage [wireGrant, onwardGrant] (.arr (records.map Json.obj)) 8
      {wireGrant.issuer} none 100 none none none fun _ => 0).isOk = true := by decide +kernel
  obtain ⟨res, hres⟩ := exists_of_isOk hrun
  obtain ⟨records, hrecords, hlineage⟩ := bind_ok_iff.mp hres
  obtain ⟨htamper, _, hcli⟩ := lineage_tamper_evident toySignedWith toy_sound
  obtain ⟨_, records', keys, hdocument, _, hdag, _⟩ := accepted_of_verifyLineage hlineage
  obtain ⟨records'', hdocument', h⟩ := hcli _ _ _ _ _ _ _ _ _ _ _ hlineage
  have hdoc : lineageRecords (.arr (records.map Json.obj)) = .ok (records.map Json.obj) := by
    simp [lineageRecords, lineageRecords.isObject]
  cases hdocument.symm.trans hdoc
  cases hdocument'.symm.trans hdoc
  have hcf := toyHops_collisionFree records hrecords
  refine ⟨records, hrecords, htamper _ _ _ _ _ _ _ _ _ _ hdag hdag hcf ?_, h⟩
  intro leaf hleaf leaf' hleaf'
  cases Option.mem_unique hleaf hleaf'
  obtain ⟨_, trusted, subjects, _, hverify, _⟩ := verifyTraceDag_ok_iff.mp hdag
  have hmem := List.mem_of_getLast? hleaf
  obtain ⟨d, _, _, _, _, hash, _, rfl, haccepted⟩ := accepted_of_verifyRecords hverify hmem
  exact hcf d d hash hmem hmem haccepted.hashed haccepted.hashed

end Ca2a
