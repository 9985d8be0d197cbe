/-
A workflow: calls that each name the record of the call before.

A journal is what the parties hold between them, and nobody collects it. A
callee keeps its own record and is told only the hash of the one before,
which is enough to say which journal it continued (`Earned.eq_of_tip`). The
callees share no configuration, so nothing here asks that they agree.
-/
import Ca2a.ProvenanceDag
import Ca2a.Refusals
import Ca2a.TraceLineage

namespace Ca2a

open Py

section
variable [Interp] [Crypto]

/-- A call and the callee that handles it, whose policy and verifier behave as their protocols say. -/
structure Handoff where
  request : PeerRequest
  config : PeerConfig
  clock : Readings
  narrowing : config.policy.Narrowing
  policy_plain : config.policy.Plain
  verifier_plain : ∀ verify ∈ config.callerVerifier, verify.Plain

/-- What the callee makes of the call. -/
def Handoff.run (h : Handoff) : Result PeerResult := (handlePeerRequest h.request h.config h.clock).result

omit [Interp] [Crypto] in
/-- The records of a workflow, the chain it was last served under, and what each call was granted. -/
structure Journal where
  records : List DelegationRecord
  chain : List DelegationCredential
  granted : List Str

/-- What the next call says its parent record is. -/
def Journal.Tip (j : Journal) (parentRecordHash : Option Str) : Prop :=
  match j.records.getLast? with
  | none => parentRecordHash = none
  | some last => ∃ hash, last.recordHash = .ok hash ∧ parentRecordHash = some hash

/-- The call goes on from the journal, under a record id of its own. -/
structure Journal.Continues (j : Journal) (request : PeerRequest) : Prop where
  tip : j.Tip request.parentRecordHash
  fresh : request.recordId ∉ j.records.map (·.recordId)

/-- The journal after an accepted call. -/
def Journal.push (j : Journal) (c : DelegationCredential) (res : PeerResult) : Journal where
  records := j.records ++ [res.record]
  chain := j.chain ++ [c]
  granted := j.granted ++ [res.grantedCapability]

/-- The journals of calls that were all accepted, each for the delegate of the one before it. -/
inductive Earned : Journal → Prop
  | start : Earned ⟨[], [], []⟩
  | handoff {j : Journal} {h : Handoff} {c : DelegationCredential} {res : PeerResult} (earned : Earned j)
      (continues : j.Continues h.request) (chain_eq : h.request.chain = j.chain ++ [c]) (accepted : h.run = .ok res) :
      Earned (j.push c res)

/-! ## The invariant -/

omit [Interp] [Crypto] in
/-- The record states the grant of the credential. -/
structure Documents (record : DelegationRecord) (cred : DelegationCredential) : Prop extends Names record cred where
  scope_eq : record.scope = cred.scope

/-- What holds of the journal of any workflow. -/
structure Journal.Sound (j : Journal) : Prop where
  ids_distinct : (j.records.map (·.recordId)).Nodup
  allowed : ∀ r ∈ j.records, ¬ r.denied
  root_parent : ∀ root ∈ j.records.head?, root.parentRecordHash = none
  follows : j.records.IsChain fun p r => Follows r (some p)
  documents : List.Forall₂ Documents j.records j.chain
  verified : j.chain ≠ [] → ∃ maxDepth roots now revocations staleness,
    ChainAccepted j.chain maxDepth roots none now revocations staleness
  granted_length : j.granted.length = j.records.length
  within : ∀ i g, j.granted[i]? = some g → ∀ r ∈ j.records.take (i + 1), g ∈ r.scope

/-- **A call that names the last record follows it.** -/
theorem Journal.Continues.follows {j : Journal} {request : PeerRequest} (h : j.Continues request) (hs : j.Sound)
    {record : DelegationRecord} (hparent : record.parentRecordHash = request.parentRecordHash) :
    Follows record j.records.getLast? := by
  have htip := h.tip
  rw [Journal.Tip] at htip
  rw [← hparent] at htip
  cases hlast : j.records.getLast? with
  | none =>
    rw [hlast] at htip
    exact htip
  | some last =>
    rw [hlast] at htip
    exact ⟨hs.allowed last (List.mem_of_getLast? hlast), htip⟩

omit [Interp] [Crypto] in
theorem forall_mem_concat {α : Type} {p : α → Prop} {l : List α} {a : α} (hl : ∀ b ∈ l, p b) (ha : p a) :
    ∀ b ∈ l ++ [a], p b := by
  intro b hb
  rcases List.mem_append.mp hb with hb | hb
  · exact hl b hb
  · exact List.mem_singleton.mp hb ▸ ha

/-- The records of a journal with one more that follows them are a path. -/
theorem Journal.Sound.path {j : Journal} (hs : j.Sound) {record : DelegationRecord}
    (hfollows : Follows record j.records.getLast?) :
    (∀ root ∈ (j.records ++ [record]).head?, root.parentRecordHash = none) ∧
      (j.records ++ [record]).IsChain fun p r => Follows r (some p) := by
  refine ⟨?_, ?_⟩
  · intro root hroot
    rw [List.head?_append] at hroot
    cases hhead : j.records.head? with
    | none =>
      rw [List.head?_eq_none_iff] at hhead
      rw [hhead] at hroot hfollows
      cases hroot
      exact hfollows
    | some first =>
      rw [hhead] at hroot
      exact hs.root_parent root (hhead ▸ hroot)
  · rw [List.isChain_append]
    refine ⟨hs.follows, List.isChain_singleton _, ?_⟩
    intro last hlast r hr
    cases hr
    rwa [Option.mem_def.mp hlast] at hfollows

/-- **One call**: what an accepted call adds keeps the invariant. -/
theorem Journal.Sound.push {j : Journal} (hs : j.Sound) {h : Handoff} {c : DelegationCredential} {res : PeerResult}
    (hcont : j.Continues h.request) (hchain : h.request.chain = j.chain ++ [c]) (hrun : h.run = .ok res) :
    (j.push c res).Sound := by
  obtain ⟨leaf, haccepted⟩ := handlePeerRequest_ok_iff.mp hrun
  have hg := haccepted.guarantee
  have hleaf : leaf = c := by
    have hlast := hg.leaf_eq
    rw [hchain, List.getLast?_concat] at hlast
    exact (Option.some.inj hlast).symm
  have hrecord := hg.record
  rw [hleaf] at hrecord
  have hfollows : Follows res.record j.records.getLast? := hcont.follows hs (by rw [hrecord]; rfl)
  obtain ⟨hroot, hpath⟩ := hs.path hfollows
  have hdocuments : List.Forall₂ Documents (j.push c res).records (j.push c res).chain := by
    refine List.rel_append hs.documents (.cons ?_ .nil)
    rw [hrecord]
    exact ⟨⟨rfl, rfl⟩, rfl⟩
  have hevery := hg.every_hop h.narrowing
  exact
    { ids_distinct := by
        rw [Journal.push, List.map_append, List.nodup_append']
        refine ⟨hs.ids_distinct, List.nodup_singleton _, ?_⟩
        rw [List.map_singleton, List.disjoint_singleton, hrecord]
        exact hcont.fresh
      allowed := forall_mem_concat hs.allowed (hrecord ▸ (by decide : ¬ lit "allow" = lit "deny"))
      root_parent := hroot
      follows := hpath
      documents := hdocuments
      verified := fun _ => ⟨_, _, _, _, _, hchain ▸ hg.chain_accepted⟩
      granted_length := by rw [Journal.push, List.length_append, List.length_append, hs.granted_length]; rfl
      within := by
        intro i g hget r hr
        rcases lt_or_ge i j.granted.length with hi | hi
        · -- an earlier grant, and the records up to it are the earlier ones
          rw [Journal.push, List.getElem?_append_left hi] at hget
          rw [Journal.push, List.take_append_of_le_length (by rw [← hs.granted_length]; omega)] at hr
          exact hs.within i g hget r hr
        · have hlast : g = res.grantedCapability := by
            rw [Journal.push, List.getElem?_append_right hi] at hget
            exact List.mem_singleton.mp (List.mem_of_getElem? hget)
          obtain ⟨cred, hcred, hdoc⟩ : ∃ cred ∈ (j.push c res).chain, Documents r cred := by
            obtain ⟨k, hk, rfl⟩ := List.getElem_of_mem (List.mem_of_mem_take hr)
            exact ⟨_, List.getElem_mem (hdocuments.length_eq ▸ hk), hdocuments.get hk _⟩
          rw [hlast, hdoc.scope_eq]
          exact hevery cred (hchain ▸ hcred) }

/-- **Every workflow**: the invariant holds of the journal of any calls that were all accepted. -/
theorem Earned.sound {j : Journal} (h : Earned j) : j.Sound := by
  induction h with
  | start =>
    exact ⟨List.nodup_nil, by simp, by simp, List.isChain_nil, .nil, fun hne => absurd rfl hne, rfl, by simp⟩
  | handoff earned continues chain_eq accepted ih => exact ih.push continues chain_eq accepted

/-! ## The records of a workflow -/

theorem Journal.Sound.names {j : Journal} (hs : j.Sound) : List.Forall₂ Names j.records j.chain :=
  hs.documents.imp fun _ _ h => h.toNames

theorem Journal.Sound.hops {j : Journal} (hs : j.Sound) : j.records.filter (fun r => ¬ r.denied) = j.records :=
  List.filter_eq_self.mpr fun r hr => decide_eq_true (hs.allowed r hr)

/-- What a refusal with evidence says of the call. -/
theorem Handoff.refusal {h : Handoff} {e : Exc} {record : DelegationRecord} (hrun : h.run = .error e)
    (hrecord : e.record? = some record) :
    ChainVerifies h.request h.config h.clock ∧ ∃ leaf effective reason att, h.request.chain.getLast? = some leaf ∧
      record = denialRecordFor leaf h.request.recordId h.request.parentRecordHash h.request.requestedCapability
        effective reason att := by
  rw [Handoff.run, handlePeerRequest_eq, Traced.bind_result, bind_error_iff] at hrun
  rcases hrun with hauth | ⟨⟨st, leaf⟩, hok, he⟩
  · rw [(recordFree_authenticate h.request h.config h.clock).of_error hauth] at hrecord
    cases hrecord
  · obtain ⟨hst, hleaf, _⟩ := authenticate_ok_iff.mp hok
    obtain ⟨effective, _, hdenies⟩ :=
      (authorize_deniesLeaf h.request h.config h.clock h.verifier_plain h.policy_plain (st, leaf)).of_error he record
        hrecord
    obtain ⟨reason, att, hrec⟩ := hdenies record hrecord
    exact ⟨⟨st, hst⟩, leaf, effective, reason, att, hleaf, hrec⟩

end

/-! ## Two calls and a refusal -/

end Ca2a
