/-
`verify_dag` and `cross_check_chain`: the unsigned provenance of a chain.

`DagAccepted` is what the walk over the records establishes, with no order
of checks in it. The two loops of the cross-check see refusals differently,
the first leaves them out and the second looks each up by its credential;
`Accounts` is the one shape that both together leave.
-/
import Ca2a.Chain
import Ca2a.HashChain
import Ca2a.Bodies

namespace Ca2a

open Py

/-! ## The walk -/

namespace DelegationRecord

/-- `DelegationRecord.denied` -/
def denied (r : DelegationRecord) : Prop := r.decision = lit "deny"

instance (r : DelegationRecord) : Decidable r.denied := inferInstanceAs (Decidable (r.decision = lit "deny"))

end DelegationRecord

section
variable [Interp] [Crypto]

/-- The parent check of one record against the previous one. -/
def checkParent (i : Nat) (record : DelegationRecord) : Option DelegationRecord → Result Unit
  | none =>
    if record.parentRecordHash ≠ none then
      raise .provenanceLinkBroken (lit "root record must not reference a parent")
    else .ok ()
  | some prev =>
    if prev.denied then
      raise .provenanceLinkBroken (lit "record " ++ decimal i ++ lit " is chained onto a denied hop")
        (some (lit "record " ++ prev.recordId ++ lit " refused " ++ (optStr prev.requestedCapability).repr ++
          lit "; no hop may follow it"))
    else do
      let expected ← prev.recordHash
      if record.parentRecordHash ≠ some expected then
        raise .provenanceLinkBroken
          (lit "record " ++ decimal i ++ lit " parent link does not match the previous record's hash")
          (some (lit "a tampered or reparented record was detected"))
      else .ok ()

/-- One iteration of the loop of `verify_dag`. -/
def checkDagRecord (i : Nat) (seenIds : Finset Str) (prev : Option DelegationRecord) (record : DelegationRecord) :
    Result Unit :=
  if record.recordId ∈ seenIds then
    raise .provenanceLinkBroken (lit "duplicate record_id at position " ++ decimal i ++ lit ": " ++ record.recordId)
  else checkParent i record prev

/-- The loop of `verify_dag`, from any state of it. -/
def verifyDagRecords : Nat → Finset Str → Option DelegationRecord → List DelegationRecord → Result Unit
  | _, _, _, [] => .ok ()
  | i, seenIds, prev, record :: rest => do
    checkDagRecord i seenIds prev record
    verifyDagRecords (i + 1) (insert record.recordId seenIds) (some record) rest

/-- `verify_dag` -/
def verifyDag (records : List DelegationRecord) : Result (List DelegationRecord) :=
  if records = [] then raise .provenanceLinkBroken (lit "empty provenance chain")
  else do
    verifyDagRecords 0 ∅ none records
    .ok records

/-! ## The check against a chain -/

omit [Interp] [Crypto] in
/-- One iteration of the positional loop of `cross_check_chain`. -/
def crossCheckHop (i : Nat) (record : DelegationRecord) (cred : DelegationCredential) : Result Unit :=
  if record.credentialId ≠ cred.credentialId then
    raise .provenanceLinkBroken (lit "record " ++ decimal i ++ lit " credential_id does not match the chain")
  else if record.subject ≠ cred.subject then
    raise .provenanceLinkBroken (lit "record " ++ decimal i ++ lit " subject does not match the chain")
  else .ok ()

omit [Interp] [Crypto] in
/-- The positional loop of `cross_check_chain`. -/
def crossCheckHops : Nat → List DelegationRecord → List DelegationCredential → Result Unit
  | i, record :: records, cred :: chain => do
    crossCheckHop i record cred
    crossCheckHops (i + 1) records chain
  | _, _, _ => .ok ()

omit [Interp] [Crypto] in
/-- `{c.credential_id: c for c in chain}` -/
def byCredentialId (chain : List DelegationCredential) : Dict DelegationCredential :=
  chain.foldl (fun d c => Dict.set d c.credentialId c) []

omit [Crypto] in
/-- One iteration of the loop of `cross_check_chain` over refusals. -/
def crossCheckDenial (byId : Dict DelegationCredential) (record : DelegationRecord) : Result Unit :=
  if ¬ record.denied then .ok ()
  else
    match byId.get? record.credentialId with
    | none =>
      raise .provenanceLinkBroken (lit "denial record " ++ record.recordId ++ lit " references credential " ++
        Py.repr record.credentialId ++ lit ", which is not in the chain")
    | some under =>
      if record.subject ≠ under.subject then
        raise .provenanceLinkBroken
          (lit "denial record " ++ record.recordId ++ lit " subject does not match the chain")
      else .ok ()

omit [Crypto] in
/-- The loop of `cross_check_chain` over refusals. -/
def crossCheckDenials (byId : Dict DelegationCredential) : List DelegationRecord → Result Unit
  | [] => .ok ()
  | record :: rest => do
    crossCheckDenial byId record
    crossCheckDenials byId rest

omit [Crypto] in
/-- `cross_check_chain` -/
def crossCheckChain (records : List DelegationRecord) (chain : List DelegationCredential) : Result Unit :=
  let hops := records.filter fun r => ¬ r.denied
  if hops.length ≠ chain.length then
    raise .provenanceLinkBroken (lit "provenance length " ++ decimal hops.length ++
      lit " does not match chain length " ++ decimal chain.length)
  else do
    crossCheckHops 0 hops chain
    crossCheckDenials (byCredentialId chain) records

/-! ## What the walk accepts -/

/-- The record continues the previous one, or starts the walk. -/
def Follows (record : DelegationRecord) : Option DelegationRecord → Prop
  | none => record.parentRecordHash = none
  | some prev => ¬ prev.denied ∧ ∃ hash, prev.recordHash = .ok hash ∧ record.parentRecordHash = some hash

/-- The conditions on the records, with no reference to the order in which they are checked. -/
structure DagAccepted (records : List DelegationRecord) : Prop where
  nonempty : records ≠ []
  ids_distinct : (records.map (·.recordId)).Nodup
  root_parent : ∀ root ∈ records.head?, root.parentRecordHash = none
  denial_last : ∀ r ∈ records.dropLast, ¬ r.denied
  linked : ∀ i (h : i + 1 < records.length), ∃ hash,
    records[i].recordHash = .ok hash ∧ records[i + 1].parentRecordHash = some hash

theorem checkParent_ok_iff {i : Nat} {record : DelegationRecord} {prev : Option DelegationRecord} :
    checkParent i record prev = .ok () ↔ Follows record prev := by
  cases prev with
  | none => by_cases h : record.parentRecordHash = none <;> simp [checkParent, Follows, h]
  | some prev =>
    rw [checkParent, Follows]
    by_cases hd : prev.denied
    · simp [hd]
    · rw [if_neg hd, and_iff_right hd, bind_ok_iff]
      refine exists_congr fun hash => and_congr_right fun _ => ?_
      by_cases h : record.parentRecordHash = some hash <;> simp [h]

theorem checkDagRecord_ok_iff {i : Nat} {seenIds : Finset Str} {prev : Option DelegationRecord}
    {record : DelegationRecord} :
    checkDagRecord i seenIds prev record = .ok () ↔ record.recordId ∉ seenIds ∧ Follows record prev := by
  rw [checkDagRecord]
  by_cases h : record.recordId ∈ seenIds
  · simp [h]
  · rw [if_neg h, checkParent_ok_iff, and_iff_right h]

/-- **What a run of the walk establishes**, from any state of it. -/
theorem verifyDagRecords_ok_iff {i : Nat} {seenIds : Finset Str} {prev : Option DelegationRecord}
    {l : List DelegationRecord} :
    verifyDagRecords i seenIds prev l = .ok () ↔
      (∀ r ∈ l, r.recordId ∉ seenIds) ∧ (l.map (·.recordId)).Nodup ∧ (∀ r ∈ l.head?, Follows r prev) ∧
      l.IsChain fun p r => Follows r (some p) := by
  induction l generalizing i seenIds prev with
  | nil => simp [verifyDagRecords]
  | cons r l ih =>
    simp only [verifyDagRecords, bind_unit_ok_iff, checkDagRecord_ok_iff, ih, List.isChain_cons, List.map_cons,
      List.nodup_cons, List.mem_map, not_exists, not_and, List.head?_cons, Option.mem_some_iff, List.forall_mem_cons,
      Finset.mem_insert, not_or]
    constructor
    · intro h
      obtain ⟨⟨hid, hfollows⟩, hrest, hnodup, hhead, hchain⟩ := h
      refine ⟨⟨hid, fun r' hr' => (hrest r' hr').2⟩, ⟨fun r' hr' => (hrest r' hr').1, hnodup⟩, ?_, hhead, hchain⟩
      intro _ heq
      exact heq ▸ hfollows
    · intro h
      obtain ⟨⟨hid, hrest⟩, ⟨hne, hnodup⟩, hfollows, hhead, hchain⟩ := h
      exact ⟨⟨hid, hfollows r rfl⟩, fun r' hr' => ⟨hne r' hr', hrest r' hr'⟩, hnodup, hhead, hchain⟩

/-- Each record follows the one before it. -/
theorem follows_iff {records : List DelegationRecord} :
    (records.IsChain fun p r => Follows r (some p)) ↔
      (∀ r ∈ records.dropLast, ¬ r.denied) ∧ ∀ i (h : i + 1 < records.length), ∃ hash,
        records[i].recordHash = .ok hash ∧ records[i + 1].parentRecordHash = some hash := by
  rw [List.isChain_iff_getElem]
  constructor
  · intro h
    refine ⟨fun r hr => ?_, fun i hi => (h i hi).2⟩
    obtain ⟨i, hi, rfl⟩ := List.getElem_of_mem hr
    rw [List.length_dropLast] at hi
    rw [List.getElem_dropLast]
    exact (h i (by omega)).1
  · intro h i hi
    obtain ⟨hdenied, hlink⟩ := h
    refine ⟨hdenied _ ?_, hlink i hi⟩
    rw [← List.getElem_dropLast (h := by rw [List.length_dropLast]; omega)]
    exact List.getElem_mem _

theorem verifyDag_ok_iff {records r : List DelegationRecord} :
    verifyDag records = .ok r ↔ r = records ∧ DagAccepted records := by
  rw [verifyDag]
  by_cases hne : records = []
  · rw [if_pos hne]
    simp only [raise_ne_ok, false_iff, not_and]
    exact fun _ h => h.nonempty hne
  · rw [if_neg hne, bind_unit_ok_iff, verifyDagRecords_ok_iff, follows_iff, Except.ok.injEq]
    constructor
    · intro h
      obtain ⟨⟨_, hnodup, hroot, hdenied, hlink⟩, heq⟩ := h
      exact ⟨heq.symm, hne, hnodup, hroot, hdenied, hlink⟩
    · intro h
      obtain ⟨heq, h⟩ := h
      exact ⟨⟨by simp, h.ids_distinct, h.root_parent, h.denial_last, h.linked⟩, heq.symm⟩

/-! ## Tampering -/

/-- The hashes of the records that are named are defined. -/
theorem DagAccepted.hashed {records : List DelegationRecord} (h : DagAccepted records) :
    ∀ r ∈ records.dropLast, ∃ hash, r.recordHash = .ok hash := by
  intro r hr
  obtain ⟨i, hi, rfl⟩ := List.getElem_of_mem hr
  rw [List.length_dropLast] at hi
  rw [List.getElem_dropLast]
  obtain ⟨hash, hhash, _⟩ := h.linked i (by omega)
  exact ⟨hash, hhash⟩

/-- **Accepted records are a chain of hashes**, read from the last one. -/
theorem DagAccepted.rooted {records : List DelegationRecord} (h : DagAccepted records) :
    HashChain.Rooted DelegationRecord.recordHash (fun r => r.parentRecordHash.map .ok) records.reverse := by
  refine .of_isChain (List.reverse_ne_nil_iff.mpr h.nonempty) (fun root hroot => ?_) ?_
  · rw [List.getLast?_reverse] at hroot
    rw [h.root_parent root hroot]
    rfl
  · rw [List.isChain_reverse, List.isChain_iff_getElem]
    intro i hi
    obtain ⟨hash, hhash, hlink⟩ := h.linked i hi
    rw [hhash, hlink]
    rfl

/-- **The last record determines the records**, since each names the recomputed hash of the one before it. -/
theorem DagAccepted.eq_of_last (hsha : Function.Injective Crypto.sha256) {records records' : List DelegationRecord}
    (h : DagAccepted records) (h' : DagAccepted records') (hlast : records.getLast? = records'.getLast?) :
    records = records' := by
  obtain ⟨r, l, hr⟩ := List.exists_cons_of_ne_nil (List.reverse_ne_nil_iff.mpr h.nonempty)
  obtain ⟨r', l', hr'⟩ := List.exists_cons_of_ne_nil (List.reverse_ne_nil_iff.mpr h'.nonempty)
  have hrooted := h.rooted
  have hrooted' := h'.rooted
  rw [hr] at hrooted
  rw [hr'] at hrooted'
  have hsame : r = r' := by
    rw [← List.head?_reverse, ← List.head?_reverse, hr, hr'] at hlast
    exact Option.some.inj hlast
  have hinj : ∀ a ∈ l, ∀ b ∈ l', a.recordHash = b.recordHash → a = b := by
    intro a ha b _ hab
    have hmem : a ∈ records.dropLast := by
      rw [← List.mem_reverse, ← List.tail_reverse, hr]
      exact ha
    obtain ⟨hash, hhash⟩ := h.hashed a hmem
    exact DelegationRecord.eq_of_recordHash hsha (hab.symm.trans hhash) hhash
  have hall := hrooted.forall₂ (R := Eq) (fun _ _ hab => by rw [hab]) hrooted' hinj hsame
  rw [List.forall₂_eq_eq_eq, ← hr, ← hr'] at hall
  exact List.reverse_injective hall

end

/-! ## What both checks accept -/

/-- The record names the credential and carries its subject. -/
structure Names (record : DelegationRecord) (cred : DelegationCredential) : Prop where
  id_eq : record.credentialId = cred.credentialId
  subject_eq : record.subject = cred.subject

/-- A hop for each credential, in order, and at most one refusal after them, under a credential of the chain. -/
def Accounts (records : List DelegationRecord) (chain : List DelegationCredential) : Prop :=
  ∃ (hops : List DelegationRecord) (refusal : Option DelegationRecord), records = hops ++ refusal.toList ∧
    hops.length = chain.length ∧ (∀ r ∈ hops, ¬ r.denied) ∧ List.Forall₂ Names hops chain ∧
    ∀ r ∈ refusal, r.denied ∧ ∃ c ∈ chain, Names r c

theorem crossCheckHop_ok_iff {i : Nat} {record : DelegationRecord} {cred : DelegationCredential} :
    crossCheckHop i record cred = .ok () ↔ Names record cred := by
  rw [crossCheckHop]
  by_cases hid : record.credentialId = cred.credentialId
  · rw [if_neg (not_not.mpr hid)]
    by_cases hsubject : record.subject = cred.subject
    · simp only [hsubject, ne_eq, not_true_eq_false, if_false, true_iff]
      exact ⟨hid, hsubject⟩
    · simp only [ne_eq, hsubject, not_false_eq_true, if_true, raise_ne_ok, false_iff]
      exact fun h => hsubject h.subject_eq
  · simp only [ne_eq, hid, not_false_eq_true, if_true, raise_ne_ok, false_iff]
    exact fun h => hid h.id_eq

/-- **What a run of the positional loop establishes**, from any state of it. -/
theorem crossCheckHops_ok_iff {i : Nat} {records : List DelegationRecord} {chain : List DelegationCredential}
    (hlen : records.length = chain.length) :
    crossCheckHops i records chain = .ok () ↔ List.Forall₂ Names records chain := by
  induction records generalizing i chain with
  | nil =>
    cases chain with
    | nil => simp [crossCheckHops]
    | cons c chain => simp at hlen
  | cons r records ih =>
    cases chain with
    | nil => simp at hlen
    | cons c chain =>
      rw [crossCheckHops, bind_unit_ok_iff, crossCheckHop_ok_iff, ih (by simpa using hlen), List.forall₂_cons]

/-- The index holds credentials of the chain, each under its id. -/
theorem mem_of_byCredentialId {chain : List DelegationCredential} {id : Str} {cred : DelegationCredential}
    (h : (byCredentialId chain).get? id = some cred) : cred ∈ chain ∧ cred.credentialId = id := by
  suffices hall : ∀ d : Dict DelegationCredential,
      (chain.foldl (fun d c => Dict.set d c.credentialId c) d).get? id = some cred →
        (cred ∈ chain ∧ cred.credentialId = id) ∨ d.get? id = some cred by
    simpa using hall [] h
  clear h
  intro d hd
  induction chain generalizing d with
  | nil => exact .inr hd
  | cons c chain ih =>
    rw [List.foldl_cons] at hd
    rcases ih _ hd with hmem | hget
    · exact .inl ⟨List.mem_cons_of_mem _ hmem.1, hmem.2⟩
    · by_cases hid : c.credentialId = id
      · subst hid
        rw [Dict.get?_set_self, Option.some.injEq] at hget
        exact .inl ⟨by simp [hget], by rw [hget]⟩
      · rw [Dict.get?_set_other _ _ (Ne.symm hid)] at hget
        exact .inr hget

section
variable [Interp]

theorem crossCheckDenials_ok_iff {byId : Dict DelegationCredential} {records : List DelegationRecord} :
    crossCheckDenials byId records = .ok () ↔
      ∀ r ∈ records, r.denied → ∃ under, byId.get? r.credentialId = some under ∧ r.subject = under.subject := by
  induction records with
  | nil => simp [crossCheckDenials]
  | cons r records ih =>
    rw [crossCheckDenials, bind_unit_ok_iff, ih, List.forall_mem_cons]
    refine and_congr_left fun _ => ?_
    rw [crossCheckDenial]
    by_cases hd : r.denied
    · rw [if_neg (not_not.mpr hd), imp_iff_right hd]
      cases byId.get? r.credentialId with
      | none => simp
      | some under => by_cases hs : r.subject = under.subject <;> simp [hs]
    · simp [hd]

theorem crossCheckChain_ok_iff {records : List DelegationRecord} {chain : List DelegationCredential} :
    crossCheckChain records chain = .ok () ↔ List.Forall₂ Names (records.filter fun r => ¬ r.denied) chain ∧
      ∀ r ∈ records, r.denied →
        ∃ under, (byCredentialId chain).get? r.credentialId = some under ∧ r.subject = under.subject := by
  rw [crossCheckChain]
  by_cases hlen : (records.filter fun r => ¬ r.denied).length = chain.length
  · simp only [hlen, ne_eq, not_true_eq_false, if_false, bind_unit_ok_iff, crossCheckHops_ok_iff hlen,
      crossCheckDenials_ok_iff]
  · simp only [ne_eq, hlen, not_false_eq_true, if_true, raise_ne_ok, false_iff, not_and]
    exact fun h => absurd h.length_eq hlen

/-- **Both checks together pin the shape**: a refusal can only be last, and the others are matched by position. -/
theorem DagAccepted.accounts [Crypto] {records : List DelegationRecord} (h : DagAccepted records)
    {chain : List DelegationCredential} (hcross : crossCheckChain records chain = .ok ()) : Accounts records chain := by
  obtain ⟨hhops, hdenials⟩ := crossCheckChain_ok_iff.mp hcross
  obtain ⟨before, last, rfl⟩ := (List.eq_nil_or_concat' records).resolve_left h.nonempty
  have hbefore : ∀ r ∈ before, ¬ r.denied := by
    have hall := h.denial_last
    rwa [List.dropLast_concat] at hall
  have hfilter : before.filter (fun r => ¬ r.denied) = before := by
    rw [List.filter_eq_self]
    exact fun r hr => decide_eq_true (hbefore r hr)
  rw [List.filter_append, hfilter] at hhops
  by_cases hd : last.denied
  · have hlast : [last].filter (fun r => ¬ r.denied) = [] := by simp [hd]
    rw [hlast, List.append_nil] at hhops
    refine ⟨before, some last, rfl, hhops.length_eq, hbefore, hhops, fun r hr => ?_⟩
    cases hr
    obtain ⟨under, hget, hsubject⟩ := hdenials last (by simp) hd
    obtain ⟨hmem, hid⟩ := mem_of_byCredentialId hget
    exact ⟨hd, under, hmem, hid.symm, hsubject⟩
  · have hlast : [last].filter (fun r => ¬ r.denied) = [last] := by simp [hd]
    rw [hlast] at hhops
    refine ⟨before ++ [last], none, by simp, hhops.length_eq, fun r hr => ?_, hhops, by simp⟩
    rcases List.mem_append.mp hr with hr | hr
    · exact hbefore r hr
    · exact List.mem_singleton.mp hr ▸ hd

end

/-! ## The records of a chain -/

section
variable [Interp] [Crypto]

/-- `record_for` along a chain, each record with the hash of the one before it. -/
def recordsFor : Option Str → List (DelegationCredential × Str × CallerAttestation) → Result (List DelegationRecord)
  | _, [] => .ok []
  | parentRecordHash, (cred, recordId, callerAttestation) :: rest => do
    let record := recordFor cred recordId parentRecordHash callerAttestation
    let hash ← record.recordHash
    let records ← recordsFor (some hash) rest
    .ok (record :: records)

/-- The records of signed credentials are hops that follow one another, under the given ids. -/
theorem exists_recordsFor {parent : Option Str} (hparent : ∀ p ∈ parent, Clean p)
    {hops : List (DelegationCredential × Str × CallerAttestation)} (hsigned : ∀ hop ∈ hops, hop.1.Signed)
    (hclean : ∀ hop ∈ hops, Clean hop.2.1) :
    ∃ records, recordsFor parent hops = .ok records ∧ records.map (·.recordId) = hops.map (·.2.1) ∧
      (∀ r ∈ records, ¬ r.denied) ∧ (∀ r ∈ records.head?, r.parentRecordHash = parent) ∧
      (records.IsChain fun p r => Follows r (some p)) ∧ List.Forall₂ Names records (hops.map (·.1)) := by
  induction hops generalizing parent with
  | nil => exact ⟨[], rfl, by simp⟩
  | cons hop hops ih =>
    obtain ⟨cred, recordId, att⟩ := hop
    rw [List.forall_mem_cons] at hsigned hclean
    obtain ⟨hash, hhash, hhashclean⟩ := DelegationRecord.exists_recordHash
      (canonical_recordFor hsigned.1.canonical hclean.1 hparent att)
    have hnext : ∀ p ∈ some hash, Clean p := by simpa using hhashclean
    obtain ⟨records, hrun, hids, hundenied, hhead, hchain, hnames⟩ := ih hnext hsigned.2 hclean.2
    have hallow : ¬ (recordFor cred recordId parent att).denied := (by decide : ¬ lit "allow" = lit "deny")
    refine ⟨recordFor cred recordId parent att :: records, ?_, ?_, ?_, ?_, ?_, ?_⟩
    · rw [recordsFor, hhash, ok_bind, hrun]
      rfl
    · rw [List.map_cons, List.map_cons, hids]
      rfl
    · exact List.forall_mem_cons.mpr ⟨hallow, hundenied⟩
    · intro r hr
      cases hr
      rfl
    · exact List.isChain_cons.mpr ⟨fun r hr => ⟨hallow, hash, hhash, hhead r hr⟩, hchain⟩
    · exact .cons ⟨rfl, rfl⟩ hnames

/-- The records of a verified chain pass both checks. -/
theorem recordsFor_accepted {hops : List (DelegationCredential × Str × CallerAttestation)} (hne : hops ≠ [])
    (hsigned : ∀ hop ∈ hops, hop.1.Signed) (hclean : ∀ hop ∈ hops, Clean hop.2.1) (hnodup : (hops.map (·.2.1)).Nodup) :
    ∃ records, recordsFor none hops = .ok records ∧ verifyDag records = .ok records ∧
      crossCheckChain records (hops.map (·.1)) = .ok () := by
  obtain ⟨records, hrun, hids, hundenied, hhead, hchain, hnames⟩ :=
    exists_recordsFor (show ∀ p ∈ (none : Option Str), Clean p by simp) hsigned hclean
  obtain ⟨hdenied, hlinked⟩ := follows_iff.mp hchain
  have hnonempty : records ≠ [] := by
    intro he
    have hlen := hnames.length_eq
    rw [he, List.length_map, List.length_nil] at hlen
    exact hne (List.length_eq_zero_iff.mp hlen.symm)
  refine ⟨records, hrun, verifyDag_ok_iff.mpr ⟨rfl, hnonempty, hids ▸ hnodup, hhead, hdenied, hlinked⟩, ?_⟩
  rw [crossCheckChain_ok_iff, List.filter_eq_self.mpr fun r hr => decide_eq_true (hundenied r hr)]
  exact ⟨hnames, fun r hr hd => absurd hd (hundenied r hr)⟩

/-- **Unsigned provenance.** The walk accepts exactly the records of `DagAccepted`; with an injective digest its last
record determines the rest. The cross-check of accepted records leaves one hop for each credential and at most one
refusal, the last. And the records that `record_for` gives along a verified chain pass both, whatever each hop has
learned of its caller. -/
theorem unsigned_provenance :
    (∀ records r, verifyDag records = .ok r ↔ r = records ∧ DagAccepted records) ∧
    (Function.Injective Crypto.sha256 → ∀ records records' r r', verifyDag records = .ok r →
      verifyDag records' = .ok r' → records.getLast? = records'.getLast? → records = records') ∧
    (∀ records chain r, verifyDag records = .ok r → crossCheckChain records chain = .ok () → Accounts records chain) ∧
    ∀ (hops : List (DelegationCredential × Str × CallerAttestation)) maxDepth roots atTime clock revocations staleness st,
      verifyChain (hops.map (·.1)) maxDepth roots atTime clock revocations staleness = .ok st →
      (hops.map (·.2.1)).Nodup → (∀ hop ∈ hops, Clean hop.2.1) →
      ∃ records, recordsFor none hops = .ok records ∧ verifyDag records = .ok records ∧
        crossCheckChain records (hops.map (·.1)) = .ok () := by
  refine ⟨fun _ _ => verifyDag_ok_iff, ?_, ?_, ?_⟩
  · intro hsha records records' r r' h h' hlast
    exact (verifyDag_ok_iff.mp h).2.eq_of_last hsha (verifyDag_ok_iff.mp h').2 hlast
  · intro records chain r h hcross
    exact (verifyDag_ok_iff.mp h).2.accounts hcross
  · intro hops maxDepth roots atTime clock revocations staleness st hchain hnodup hclean
    have haccepted := (exists_verifyChain_iff.mp ⟨st, hchain⟩).2.2
    have hne : hops ≠ [] := by
      intro he
      exact haccepted.nonempty (by rw [he]; rfl)
    have hsigned : ∀ hop ∈ hops, hop.1.Signed := fun hop hhop => haccepted.signed _ (List.mem_map_of_mem hhop)
    exact recordsFor_accepted hne hsigned hclean hnodup

end

/-- The hop of `wireGrant` and a refusal under it. -/
def refusedPath (hash : Str) : List DelegationRecord :=
  [recordFor wireGrant (lit "r0") none .notOffered,
    denialRecordFor wireGrant (lit "r1") (some hash) (lit "write") {lit "read"} (lit "refused") .failed]

theorem unsigned_provenance_refusedPath :
    let _ := Interp.ascii
    let _ := Crypto.wire
    ∃ hash, DagAccepted (refusedPath hash) ∧ Accounts (refusedPath hash) [wireGrant] ∧
      (∀ records r, verifyDag records = .ok r → (refusedPath hash).getLast? = records.getLast? →
        refusedPath hash = records) ∧
      ∃ records, recordsFor none [(wireGrant, lit "r0", .hardware)] = .ok records ∧ verifyDag records = .ok records ∧
        crossCheckChain records [wireGrant] = .ok () := by
  intro _ _
  have hrun : (do
      let hash ← (recordFor wireGrant (lit "r0") none .notOffered).recordHash
      let _ ← verifyDag (refusedPath hash)
      crossCheckChain (refusedPath hash) [wireGrant] : Result Unit).isOk = true := by decide +kernel
  obtain ⟨_, hrun⟩ := exists_of_isOk hrun
  obtain ⟨hash, _, hrun⟩ := bind_ok_iff.mp hrun
  obtain ⟨r, hverify, hcross⟩ := bind_ok_iff.mp hrun
  obtain ⟨haccepts, htamper, hshape, hgiven⟩ := unsigned_provenance
  obtain ⟨st, hst⟩ := exists_verifyChain_iff.mpr
    ⟨by simp, by simp, @ChainAccepted.single _ _ wireGrant 0 wireGrant_signed rfl rfl
      (by simp [DelegationCredential.InWindow, wireGrant, readGrant])⟩
  exact ⟨hash, ((haccepts _ _).mp hverify).2, hshape _ _ _ hverify hcross,
    fun records r' h => htamper (fun _ _ h => h) _ _ _ _ hverify h,
    hgiven [(wireGrant, lit "r0", .hardware)] _ _ _ _ _ _ _ hst (by simp) (by simp)⟩

end Ca2a
