/-
`verify_chain`: a root-to-leaf delegation chain is accepted exactly when it
meets the declarative conditions of `ChainAccepted`.

The verifier is a loop over the hops that carries the previous hop and the
ids seen so far, followed by a second loop that carries the revocation
authorities. Each loop has one lemma that says when a run of it from any
state returns (`verifyHops_ok_iff`, `checkHops_ok_iff`); the rest is reading
those off at the initial state.
-/
import Ca2a.Revocation

namespace Ca2a

open Py

variable [Interp] [Crypto]

/-! ## The verifier -/

/-- The two window checks of one hop. -/
def checkWindow (now : Int) (i : Nat) (cred : DelegationCredential) : Result Unit :=
  match cred.notBefore.filter fun nb : Nat => now < nb with
  | some nb =>
    raise .credentialNotYetValid (lit "hop " ++ decimal i ++ lit " credential is not yet valid")
      (some (lit "not_before=" ++ decimal nb ++ lit " at_time=" ++ strInt now))
  | none =>
    match cred.notAfter.filter fun na : Nat => now > na with
    | some na =>
      raise .credentialExpired (lit "hop " ++ decimal i ++ lit " credential has expired")
        (some (lit "not_after=" ++ decimal na ++ lit " at_time=" ++ strInt now))
    | none => .ok ()

/-- The structural checks of one hop against the previous one. -/
def checkLink (i : Nat) (cred : DelegationCredential) : Option DelegationCredential → Result Unit
  | none =>
    if cred.parentId ≠ none then raise .brokenDelegationLink (lit "root credential must not name a parent")
    else if cred.depth ≠ 0 then raise .brokenDelegationLink (lit "root credential must have depth 0")
    else .ok ()
  | some prev =>
    if cred.parentId ≠ some prev.credentialId then
      raise .brokenDelegationLink (lit "hop " ++ decimal i ++ lit " parent_id does not match previous credential_id")
    else if cred.issuer ≠ prev.subject then
      raise .brokenDelegationLink (lit "hop " ++ decimal i ++ lit " issuer is not the previous hop's subject")
    else if cred.depth ≠ prev.depth + 1 then
      raise .brokenDelegationLink (lit "hop " ++ decimal i ++ lit " depth is not previous + 1")
    else if ¬ cred.scope ⊆ prev.scope then
      raise .scopeEscalation (lit "hop " ++ decimal i ++ lit " scope exceeds parent grant")
        (some (lit "added: " ++ reprList (sortedStrs (cred.scope \ prev.scope))))
    else .ok ()

/-- One iteration of the loop of `verify_chain`. -/
def checkHop (maxDepth now : Int) (i : Nat) (seenIds : Finset Str) (prev : Option DelegationCredential)
    (cred : DelegationCredential) : Result Unit := do
  cred.verifySignature
  checkWindow now i cred
  if cred.credentialId ∈ seenIds then
    raise .credentialReplay (lit "duplicate credential_id at hop " ++ decimal i ++ lit ": " ++ cred.credentialId)
  else if cred.depth > maxDepth then
    raise .delegationDepthExceeded
      (lit "hop " ++ decimal i ++ lit " depth " ++ strInt cred.depth ++ lit " exceeds max " ++ strInt maxDepth)
  else checkLink i cred prev

/-- The loop of `verify_chain`, from any state of it. -/
def verifyHops (maxDepth now : Int) : Nat → Finset Str → Option DelegationCredential → List DelegationCredential →
    Result Unit
  | _, _, _, [] => .ok ()
  | i, seenIds, prev, cred :: rest => do
    checkHop maxDepth now i seenIds prev cred
    verifyHops maxDepth now (i + 1) (insert cred.credentialId seenIds) (some cred) rest

/-- The loop of `_check_revocation`. -/
def checkHops (revocations : RevocationSnapshot) (atTime : Option Int) : Nat → Finset Str →
    List DelegationCredential → Result Unit
  | _, _, [] => .ok ()
  | i, authorities, cred :: rest => do
    let digest ← credentialDigest cred
    match revocations.effectiveRevocation digest (insert cred.issuer authorities) atTime with
    | some stmt =>
      raise .credentialRevoked (lit "hop " ++ decimal i ++ lit " credential has been revoked")
        (some (lit "credential_id=" ++ cred.credentialId ++ lit " digest=" ++ digest ++ lit " revoker=" ++ stmt.revoker ++
          lit " issued_at=" ++ decimal stmt.issuedAt))
    | none => checkHops revocations atTime (i + 1) (insert cred.issuer authorities) rest

/-- `_check_revocation` -/
def checkRevocation (chain : List DelegationCredential) (revocations : Option RevocationSnapshot)
    (atTime : Option Int) (now : Int) (maxStaleness : Option Int) : Result RevocationStatus :=
  match revocations with
  | none =>
    match maxStaleness with
    | some s =>
      raise .revocationStatusUnknown (lit "revocation status is required but no revocation snapshot was supplied")
        (some (lit "max_revocation_staleness=" ++ strInt s))
    | none => .ok revocationNotChecked
  | some snap => do
    checkHops snap atTime 0 ∅ chain
    match maxStaleness.filter fun s => now - snap.asOf > s with
    | some s =>
      raise .revocationStatusUnknown (lit "revocation snapshot is older than this verifier accepts")
        (some (lit "as_of=" ++ decimal snap.asOf ++ lit " at_time=" ++ strInt now ++
          lit " max_revocation_staleness=" ++ strInt s))
    | none => .ok { checked := true, asOf := some snap.asOf }

/-- `verify_chain`. `clock` is what `int(time.time())` gives, read when `at_time` is `None`. -/
def verifyChain (chain : List DelegationCredential) (maxDepth : Int) (trustedRootIssuers : Finset Str)
    (atTime : Option Int) (clock : Int) (revocations : Option RevocationSnapshot)
    (maxRevocationStaleness : Option Int) : Result RevocationStatus :=
  if ∃ t ∈ atTime, t < 0 then
    .error (.builtin .valueError (lit "at_time must be a non-negative integer or None"))
  else if ∃ s ∈ maxRevocationStaleness, s < 0 then
    .error (.builtin .valueError (lit "max_revocation_staleness must be a non-negative integer or None"))
  else
    match chain with
    | [] => raise .brokenDelegationLink (lit "empty delegation chain")
    | root :: _ =>
      if root.issuer ∉ trustedRootIssuers then
        raise .untrustedDelegationRoot (lit "delegation root issuer is not trusted by this peer")
          (some (lit "root_issuer=" ++ root.issuer))
      else do
        let now := atTime.getD clock
        verifyHops maxDepth now 0 ∅ none chain
        checkRevocation chain revocations atTime now maxRevocationStaleness

/-! ## One hop -/

/-- Every present validity bound contains the time. -/
def DelegationCredential.InWindow (now : Int) (c : DelegationCredential) : Prop :=
  (∀ nb ∈ c.notBefore, (nb : Int) ≤ now) ∧ ∀ na ∈ c.notAfter, now ≤ na

/-- The hop continues the previous one, or starts the chain. -/
def Linked (cred : DelegationCredential) : Option DelegationCredential → Prop
  | none => cred.parentId = none ∧ cred.depth = 0
  | some prev => cred.parentId = some prev.credentialId ∧ cred.issuer = prev.subject ∧ cred.depth = prev.depth + 1 ∧
      cred.scope ⊆ prev.scope

omit [Interp] [Crypto] in
theorem checkWindow_ok_iff {now : Int} {i : Nat} {cred : DelegationCredential} :
    checkWindow now i cred = .ok () ↔ cred.InWindow now := by
  unfold checkWindow DelegationCredential.InWindow
  split
  · rename_i nb h
    simp only [Option.filter_eq_some_iff, decide_eq_true_eq] at h
    simp only [raise_ne_ok, false_iff, not_and]
    intro hw
    exact absurd (hw nb h.1) (by omega)
  · rename_i h
    simp only [Option.filter_eq_none_iff, decide_eq_true_eq, not_lt] at h
    split
    · rename_i na h'
      simp only [Option.filter_eq_some_iff, decide_eq_true_eq] at h'
      simp only [raise_ne_ok, false_iff, not_and]
      intro _ hw
      exact absurd (hw na h'.1) (by omega)
    · rename_i h'
      simp only [Option.filter_eq_none_iff, decide_eq_true_eq, gt_iff_lt, not_lt] at h'
      simp only [true_iff]
      exact ⟨h, h'⟩

omit [Crypto] in
theorem checkLink_ok_iff {i : Nat} {cred : DelegationCredential} {prev : Option DelegationCredential} :
    checkLink i cred prev = .ok () ↔ Linked cred prev := by
  cases prev with
  | none =>
    simp only [checkLink, Linked]
    split_ifs <;> simp_all
  | some p =>
    simp only [checkLink, Linked]
    split_ifs <;> simp_all

theorem checkHop_ok_iff {maxDepth now : Int} {i : Nat} {seenIds : Finset Str} {prev : Option DelegationCredential}
    {cred : DelegationCredential} :
    checkHop maxDepth now i seenIds prev cred = .ok () ↔
      cred.Signed ∧ cred.InWindow now ∧ cred.credentialId ∉ seenIds ∧ cred.depth ≤ maxDepth ∧ Linked cred prev := by
  simp only [checkHop, bind_unit_ok_iff, DelegationCredential.verifySignature_ok_iff, checkWindow_ok_iff]
  refine and_congr_right fun _ => and_congr_right fun _ => ?_
  split
  · simp_all
  · split
    · rename_i h1 h2
      simp only [raise_ne_ok, false_iff, not_and]
      intro _ h3
      omega
    · rename_i h1 h2
      rw [checkLink_ok_iff]
      simp only [h1, not_false_eq_true, true_and]
      exact ⟨fun h => ⟨by omega, h⟩, fun h => h.2⟩

/-! ## Whole runs of the loops -/

/-- **What a run of the loop establishes**, from any state of it. -/
theorem verifyHops_ok_iff {maxDepth now : Int} {i : Nat} {seenIds : Finset Str} {prev : Option DelegationCredential}
    {l : List DelegationCredential} :
    verifyHops maxDepth now i seenIds prev l = .ok () ↔
      (∀ c ∈ l, c.Signed ∧ c.InWindow now ∧ c.credentialId ∉ seenIds ∧ c.depth ≤ maxDepth) ∧
      (l.map (·.credentialId)).Nodup ∧ (∀ c ∈ l.head?, Linked c prev) ∧ l.IsChain fun p c => Linked c (some p) := by
  induction l generalizing i seenIds prev with
  | nil => simp [verifyHops]
  | cons c l ih =>
    simp only [verifyHops, bind_unit_ok_iff, checkHop_ok_iff, ih, List.isChain_cons, List.map_cons, List.nodup_cons,
      List.mem_map, not_exists, not_and, List.head?_cons, Option.mem_some_iff, List.forall_mem_cons,
      Finset.mem_insert, not_or]
    constructor
    · rintro ⟨⟨hs, hw, hid, hd, hl⟩, hrest, hnd, hhead, hchain⟩
      refine ⟨⟨⟨hs, hw, hid, hd⟩, fun c' hc' => ?_⟩, ⟨fun c' hc' => (hrest c' hc').2.2.1.1, hnd⟩, ?_, hhead, hchain⟩
      · obtain ⟨hs', hw', hid', hd'⟩ := hrest c' hc'
        exact ⟨hs', hw', hid'.2, hd'⟩
      · rintro _ rfl; exact hl
    · rintro ⟨⟨⟨hs, hw, hid, hd⟩, hrest⟩, ⟨hne, hnd⟩, hl, hhead, hchain⟩
      refine ⟨⟨hs, hw, hid, hd, hl c rfl⟩, fun c' hc' => ?_, hnd, hhead, hchain⟩
      obtain ⟨hs', hw', hid', hd'⟩ := hrest c' hc'
      exact ⟨hs', hw', ⟨hne c' hc', hid'⟩, hd'⟩

/-- The digest of a signed credential is defined. -/
theorem DelegationCredential.Signed.digest {c : DelegationCredential} (h : c.Signed) :
    ∃ d, credentialDigest c = .ok d := by
  obtain ⟨_, _, _, msg, _, _, _, hmsg, _⟩ := h
  exact ⟨_, by rw [credentialDigest, hmsg]; rfl⟩

/-- The issuers of the hops up to `i`, the authorities over hop `i`. -/
def authorities (chain : List DelegationCredential) (i : Nat) : Finset Str :=
  ((chain.take (i + 1)).map (·.issuer)).toFinset

/-- **What a run of the revocation loop establishes**, from any state of it. -/
theorem checkHops_ok_iff {snap : RevocationSnapshot} {atTime : Option Int} {i : Nat} {auth : Finset Str}
    {l : List DelegationCredential} :
    checkHops snap atTime i auth l = .ok () ↔
      ∀ j (h : j < l.length), ∃ d, credentialDigest l[j] = .ok d ∧ ¬ snap.Revokes d (auth ∪ authorities l j) atTime := by
  induction l generalizing i auth with
  | nil => simp [checkHops]
  | cons c l ih =>
    have hauth : ∀ j, auth ∪ authorities (c :: l) (j + 1) = insert c.issuer auth ∪ authorities l j := by
      intro j
      simp [authorities]
    have hauth0 : auth ∪ authorities (c :: l) 0 = insert c.issuer auth := by
      simp [authorities]
    rw [checkHops, bind_ok_iff]
    constructor
    · rintro ⟨d, hd, h⟩
      split at h
      · cases h
      · rename_i hnone
        rw [RevocationSnapshot.effectiveRevocation_none_iff] at hnone
        rw [ih] at h
        intro j hj
        cases j with
        | zero => exact ⟨d, hd, by rw [hauth0]; exact hnone⟩
        | succ j =>
          rw [hauth]
          exact h j (by simpa using hj)
    · intro h
      obtain ⟨d, hd, hnone⟩ := h 0 (by simp)
      rw [hauth0] at hnone
      refine ⟨d, hd, ?_⟩
      rw [RevocationSnapshot.effectiveRevocation_none_iff.mpr hnone]
      simp only
      rw [ih]
      intro j hj
      obtain ⟨d', hd', hn'⟩ := h (j + 1) (by simpa using hj)
      rw [hauth] at hn'
      exact ⟨d', hd', hn'⟩

/-! ## What `verify_chain` accepts -/

/-- The conditions on a chain, with no reference to the order in which they are checked. -/
structure ChainAccepted (chain : List DelegationCredential) (maxDepth : Int) (trustedRootIssuers : Finset Str)
    (atTime : Option Int) (now : Int) (revocations : Option RevocationSnapshot) (staleness : Option Int) : Prop where
  nonempty : chain ≠ []
  root_trusted : ∀ root ∈ chain.head?, root.issuer ∈ trustedRootIssuers
  signed : ∀ c ∈ chain, c.Signed
  inWindow : ∀ c ∈ chain, c.InWindow now
  ids_distinct : (chain.map (·.credentialId)).Nodup
  depth_eq : ∀ i (h : i < chain.length), chain[i].depth = i ∧ (i : Int) ≤ maxDepth
  root_parent : ∀ root ∈ chain.head?, root.parentId = none
  linked : ∀ i (h : i + 1 < chain.length), chain[i + 1].parentId = some chain[i].credentialId ∧
    chain[i + 1].issuer = chain[i].subject ∧ chain[i + 1].scope ⊆ chain[i].scope
  not_revoked : ∀ snap ∈ revocations, ∀ i (h : i < chain.length) d, credentialDigest chain[i] = .ok d →
    ¬ snap.Revokes d (authorities chain i) atTime
  fresh : ∀ s ∈ staleness, ∃ snap ∈ revocations, now - snap.asOf ≤ s

omit [Interp] [Crypto] in
/-- In a linked chain the depths count the hops. -/
theorem depth_of_linked {chain : List DelegationCredential} (hroot : ∀ c ∈ chain.head?, Linked c none)
    (hl : chain.IsChain fun p c => Linked c (some p)) (i : Nat) (h : i < chain.length) : chain[i].depth = i := by
  rw [List.isChain_iff_getElem] at hl
  induction i with
  | zero =>
    have := (hroot chain[0] (by rw [List.head?_eq_getElem?, List.getElem?_eq_getElem h]; rfl)).2
    simpa using this
  | succ i ih =>
    have := (hl i h).2.2.1
    rw [this, ih (by omega)]
    push_cast
    rfl

omit [Interp] [Crypto] in
theorem linked_iff {chain : List DelegationCredential} {maxDepth : Int} :
    ((∀ c ∈ chain, c.depth ≤ maxDepth) ∧ (∀ c ∈ chain.head?, Linked c none) ∧
      chain.IsChain fun p c => Linked c (some p)) ↔
    (∀ i (h : i < chain.length), chain[i].depth = i ∧ (i : Int) ≤ maxDepth) ∧
      (∀ root ∈ chain.head?, root.parentId = none) ∧
      ∀ i (h : i + 1 < chain.length), chain[i + 1].parentId = some chain[i].credentialId ∧
        chain[i + 1].issuer = chain[i].subject ∧ chain[i + 1].scope ⊆ chain[i].scope := by
  constructor
  · rintro ⟨hd, hroot, hl⟩
    have hdepth := depth_of_linked hroot hl
    rw [List.isChain_iff_getElem] at hl
    refine ⟨fun i h => ⟨hdepth i h, ?_⟩, fun c hc => (hroot c hc).1, fun i h => ?_⟩
    · rw [← hdepth i h]; exact hd _ (List.getElem_mem h)
    · obtain ⟨hp, hi, _, hs⟩ := hl i h
      exact ⟨hp, hi, hs⟩
  · rintro ⟨hd, hroot, hl⟩
    refine ⟨fun c hc => ?_, fun c hc => ⟨hroot c hc, ?_⟩, ?_⟩
    · obtain ⟨i, h, rfl⟩ := List.getElem_of_mem hc
      rw [(hd i h).1]; exact (hd i h).2
    · rw [List.head?_eq_getElem?, Option.mem_def, List.getElem?_eq_some_iff] at hc
      obtain ⟨h, rfl⟩ := hc
      exact_mod_cast (hd 0 h).1
    · rw [List.isChain_iff_getElem]
      intro i h
      obtain ⟨hp, hi, hs⟩ := hl i h
      refine ⟨hp, hi, ?_, hs⟩
      rw [(hd (i + 1) h).1, (hd i (by omega)).1]
      push_cast
      rfl

theorem checkRevocation_ok_iff {chain : List DelegationCredential} {revocations : Option RevocationSnapshot}
    {atTime : Option Int} {now : Int} {staleness : Option Int} (hs : ∀ c ∈ chain, c.Signed) :
    (∃ st, checkRevocation chain revocations atTime now staleness = .ok st) ↔
      (∀ snap ∈ revocations, ∀ i (h : i < chain.length) d, credentialDigest chain[i] = .ok d →
        ¬ snap.Revokes d (authorities chain i) atTime) ∧
      ∀ s ∈ staleness, ∃ snap ∈ revocations, now - snap.asOf ≤ s := by
  cases revocations with
  | none => cases staleness <;> simp [checkRevocation]
  | some snap =>
    simp only [checkRevocation, bind_unit_ok_iff, exists_and_left, checkHops_ok_iff, Finset.empty_union,
      Option.mem_some_iff, forall_eq', exists_eq_left']
    refine and_congr ?_ ?_
    · constructor
      · intro h i hi d hd
        obtain ⟨d', hd', hr⟩ := h i hi
        rw [hd] at hd'
        cases hd'
        exact hr
      · intro h i hi
        obtain ⟨d, hd⟩ := (hs _ (List.getElem_mem hi)).digest
        exact ⟨d, hd, h i hi d hd⟩
    · split
      · rename_i s hf
        simp only [Option.filter_eq_some_iff, decide_eq_true_eq] at hf
        simp only [raise_ne_ok, exists_false, false_iff, not_forall]
        exact ⟨s, hf.1, by omega⟩
      · rename_i hf
        simp only [Option.filter_eq_none_iff, decide_eq_true_eq, not_lt] at hf
        simpa using hf

/-- **The verifier accepts exactly what the conditions describe.** -/
theorem exists_verifyChain_iff {chain : List DelegationCredential} {maxDepth : Int} {roots : Finset Str}
    {atTime : Option Int} {clock : Int} {revocations : Option RevocationSnapshot} {staleness : Option Int} :
    (∃ st, verifyChain chain maxDepth roots atTime clock revocations staleness = .ok st) ↔
      (∀ t ∈ atTime, 0 ≤ t) ∧ (∀ s ∈ staleness, 0 ≤ s) ∧
      ChainAccepted chain maxDepth roots atTime (atTime.getD clock) revocations staleness := by
  unfold verifyChain
  split
  · rename_i h
    obtain ⟨t, ht, hneg⟩ := h
    simp only [reduceCtorEq, exists_false, false_iff, not_and]
    intro h
    exact absurd (h t ht) (by omega)
  rename_i h1
  split
  · rename_i h
    obtain ⟨s, hs, hneg⟩ := h
    simp only [reduceCtorEq, exists_false, false_iff, not_and]
    intro _ h
    exact absurd (h s hs) (by omega)
  rename_i h2
  simp only [not_exists, not_and, not_lt] at h1 h2
  rw [and_iff_right h1, and_iff_right h2]
  cases chain with
  | nil =>
    simp only [raise_ne_ok, exists_false, false_iff]
    exact fun h => h.nonempty rfl
  | cons root rest =>
    simp only
    split
    · rename_i hroot
      simp only [raise_ne_ok, exists_false, false_iff]
      exact fun h => hroot (h.root_trusted root rfl)
    · rename_i hroot
      simp only [not_not] at hroot
      simp only [bind_unit_ok_iff, exists_and_left, verifyHops_ok_iff]
      constructor
      · rintro ⟨⟨hhop, hnd, hhead, hchain⟩, hrev⟩
        rw [checkRevocation_ok_iff fun c hc => (hhop c hc).1] at hrev
        obtain ⟨hd, hp, hl⟩ := linked_iff.mp ⟨fun c hc => (hhop c hc).2.2.2, hhead, hchain⟩
        exact ⟨by simp, by rintro _ ⟨⟩; exact hroot, fun c hc => (hhop c hc).1, fun c hc => (hhop c hc).2.1, hnd, hd, hp,
          hl, hrev.1, hrev.2⟩
      · intro h
        obtain ⟨hd, hp, hl⟩ := linked_iff.mpr ⟨h.depth_eq, h.root_parent, h.linked⟩
        rw [checkRevocation_ok_iff h.signed]
        exact ⟨⟨fun c hc => ⟨h.signed c hc, h.inWindow c hc, by simp, hd c hc⟩, h.ids_distinct, hp, hl⟩,
          h.not_revoked, h.fresh⟩

/-- A chain that is accepted has a leaf whose texts can be encoded. -/
theorem clean_leaf {chain : List DelegationCredential} {maxDepth : Int} {roots : Finset Str} {atTime : Option Int}
    {clock : Int} {revocations : Option RevocationSnapshot} {staleness : Option Int} {revocation : RevocationStatus}
    (h : verifyChain chain maxDepth roots atTime clock revocations staleness = .ok revocation) {leaf : DelegationCredential}
    (hleaf : chain.getLast? = some leaf) : Clean leaf.credentialId ∧ Clean leaf.subject := by
  obtain ⟨_, _, haccepted⟩ := exists_verifyChain_iff.mp ⟨_, h⟩
  exact (haccepted.signed leaf (List.mem_of_getLast? hleaf)).clean

/-- **Attenuation along a whole chain**: every later scope is contained in every earlier one. -/
theorem ChainAccepted.scope_subset {chain : List DelegationCredential} {maxDepth now : Int} {roots : Finset Str}
    {atTime staleness : Option Int} {revocations : Option RevocationSnapshot}
    (h : ChainAccepted chain maxDepth roots atTime now revocations staleness) :
    chain.Pairwise fun p c => c.scope ⊆ p.scope := by
  let narrows (p c : DelegationCredential) : Prop := c.scope ⊆ p.scope
  have htrans : Trans narrows narrows narrows := ⟨fun hab hbc => hbc.trans hab⟩
  exact (List.isChain_iff_getElem (R := narrows).mpr fun i hi => (h.linked i hi).2.2).pairwise

/-- The leaf's authority is contained in that of every hop. -/
theorem ChainAccepted.leaf_scope_subset {chain : List DelegationCredential} {maxDepth now : Int} {roots : Finset Str}
    {atTime staleness : Option Int} {revocations : Option RevocationSnapshot}
    (h : ChainAccepted chain maxDepth roots atTime now revocations staleness) :
    ∀ leaf ∈ chain.getLast?, ∀ c ∈ chain, leaf.scope ⊆ c.scope := by
  intro leaf hleaf c hc
  obtain ⟨l, rfl⟩ := List.getLast?_eq_some_iff.mp hleaf
  rcases List.mem_append.mp hc with hc | hc
  · exact (List.pairwise_append.mp h.scope_subset).2.2 c hc leaf (by simp)
  · rw [List.mem_singleton.mp hc]

theorem ChainAccepted.length_le {chain : List DelegationCredential} {maxDepth now : Int} {roots : Finset Str}
    {atTime staleness : Option Int} {revocations : Option RevocationSnapshot}
    (h : ChainAccepted chain maxDepth roots atTime now revocations staleness) : (chain.length : Int) ≤ maxDepth + 1 := by
  have hpos := List.length_pos_iff.mpr h.nonempty
  have := (h.depth_eq (chain.length - 1) (by omega)).2
  omega

/-- **`verify_chain` against its declarative specification**, and what acceptance gives. -/
theorem verifyChain_spec (chain : List DelegationCredential) (maxDepth : Int) (roots : Finset Str)
    (atTime : Option Int) (clock : Int) (revocations : Option RevocationSnapshot) (staleness : Option Int)
    (htime : ∀ t ∈ atTime, 0 ≤ t) (hstale : ∀ s ∈ staleness, 0 ≤ s) :
    ((∃ st, verifyChain chain maxDepth roots atTime clock revocations staleness = .ok st) ↔
      ChainAccepted chain maxDepth roots atTime (atTime.getD clock) revocations staleness) ∧
    ∀ st, verifyChain chain maxDepth roots atTime clock revocations staleness = .ok st →
      (∀ leaf ∈ chain.getLast?, ∀ c ∈ chain, leaf.scope ⊆ c.scope) ∧ (chain.length : Int) ≤ maxDepth + 1 := by
  refine ⟨?_, fun st h => ?_⟩
  · rw [exists_verifyChain_iff]
    exact ⟨fun h => h.2.2, fun h => ⟨htime, hstale, h⟩⟩
  · have := (exists_verifyChain_iff.mp ⟨st, h⟩).2.2
    exact ⟨this.leaf_scope_subset, this.length_le⟩

/-- A signed root in its window is a chain. -/
theorem ChainAccepted.single {c : DelegationCredential} {now : Int} (hs : c.Signed) (hd : c.depth = 0)
    (hp : c.parentId = none) (hw : c.InWindow now) : ChainAccepted [c] 8 {c.issuer} none now none none where
  nonempty := by simp
  root_trusted := by simp
  signed := by simpa using hs
  inWindow := by simpa using hw
  ids_distinct := by simp
  depth_eq := by simp [hd]
  root_parent := by simpa using hp
  linked := by simp
  not_revoked := by simp
  fresh := by simp

/-- A grant and its delegation are a chain while the delegation holds, unless a snapshot revokes one of them. -/
theorem wireChain_accepted (hgrant : wireGrant.Signed) (hdelegation : wireDelegation.Signed) {atTime : Option Int} {now : Int}
    {revocations : Option RevocationSnapshot} {staleness : Option Int} (hwindow : 50 ≤ now ∧ now ≤ 1000)
    (hrevoked : ∀ snap ∈ revocations, ∀ i (h : i < [wireGrant, wireDelegation].length) d,
      credentialDigest [wireGrant, wireDelegation][i] = .ok d → ¬ snap.Revokes d (authorities [wireGrant, wireDelegation] i) atTime)
    (hfresh : ∀ s ∈ staleness, ∃ snap ∈ revocations, now - snap.asOf ≤ s) :
    ChainAccepted [wireGrant, wireDelegation] 8 {wireGrant.issuer} atTime now revocations staleness where
  nonempty := by simp
  root_trusted := by simp
  signed := by simp [hgrant, hdelegation]
  inWindow := by simp [DelegationCredential.InWindow, wireGrant, readGrant, wireDelegation, hwindow]
  ids_distinct := by decide
  depth_eq := by
    intro i hi
    have hlt : i < 2 := hi
    interval_cases i
    · exact ⟨rfl, by simp⟩
    · exact ⟨rfl, by simp⟩
  root_parent := by simp [wireGrant, readGrant]
  linked := by
    intro i hi
    obtain rfl : i = 0 := by simpa using hi
    exact ⟨rfl, rfl, Finset.Subset.refl _⟩
  not_revoked := hrevoked
  fresh := hfresh

omit [Interp] [Crypto] in
/-- A delegated grant, audited at a time at which a snapshot without statements was fresh enough. -/
theorem verifyChain_wireDelegation :
    let _ := Interp.ascii
    let _ := Crypto.wire
    ∃ st, verifyChain [wireGrant, wireDelegation] 8 {wireGrant.issuer} (some 100) 5000 (some ⟨90, [], by simp⟩) (some 60) =
        .ok st ∧
      ∀ leaf ∈ [wireGrant, wireDelegation].getLast?, ∀ c ∈ [wireGrant, wireDelegation], leaf.scope ⊆ c.scope := by
  intro _ _
  have hspec := verifyChain_spec [wireGrant, wireDelegation] 8 {wireGrant.issuer} (some 100) 5000 (some ⟨90, [], by simp⟩)
    (some 60) (by simp) (by simp)
  obtain ⟨st, hst⟩ := hspec.1.mpr (wireChain_accepted wireGrant_signed wireDelegation_signed (by simp)
    (by simp [RevocationSnapshot.Revokes]) (by simp))
  exact ⟨st, hst, (hspec.2 st hst).1⟩

end Ca2a
