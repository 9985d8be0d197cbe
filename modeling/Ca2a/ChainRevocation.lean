/-
What `_check_revocation` decides, and how a live decision and its audit
agree.

The loop over the hops ends in one of two ways (`checkHops_cases`): no hop
is revoked, or the first one that is has been named. Which hop that is
depends only on the statements that could revoke some hop (`CanRevoke`),
so order, repetition and statements of strangers do not matter.
-/
import Ca2a.Chain

namespace Ca2a

open Py

section
variable [Interp] [Crypto]

/-- The statement withdraws hop `i` on the word of an issuer at or above it. -/
def CanRevoke (chain : List DelegationCredential) (stmt : RevocationStatement) (i : Nat) : Prop :=
  (∃ cred ∈ chain[i]?, credentialDigest cred = .ok stmt.revokedDigest) ∧
    ∃ j ≤ i, ∃ above ∈ chain[j]?, stmt.revoker = above.issuer

/-- A statement of the snapshot, in force at the time, withdraws hop `i`. -/
def RevokedAt (chain : List DelegationCredential) (snap : RevocationSnapshot) (atTime : Option Int) (i : Nat) : Prop :=
  ∃ stmt ∈ snap.statements, CanRevoke chain stmt i ∧ ∀ t ∈ atTime, (stmt.issuedAt : Int) ≤ t

/-- Hop `i` is the first that is revoked. -/
def FirstRevoked (chain : List DelegationCredential) (snap : RevocationSnapshot) (atTime : Option Int) (i : Nat) : Prop :=
  RevokedAt chain snap atTime i ∧ ∀ j < i, ¬ RevokedAt chain snap atTime j

omit [Interp] [Crypto] in
/-- A refusal with `CredentialRevoked` that names hop `i`. -/
def RefusesHop {α : Type} (x : Result α) (i : Nat) : Prop :=
  ∃ detail, x = raise .credentialRevoked (lit "hop " ++ decimal i ++ lit " credential has been revoked") detail

omit [Interp] [Crypto] in
/-- A refusal with `CredentialRevoked`. -/
def RefusesRevoked {α : Type} (x : Result α) : Prop := ∃ e, x = .error (.app e) ∧ e.cls = .credentialRevoked

/-! ## The loop -/

omit [Interp] [Crypto] in
theorem mem_authorities {chain : List DelegationCredential} {i : Nat} {key : Str} :
    key ∈ authorities chain i ↔ ∃ j ≤ i, ∃ above ∈ chain[j]?, key = above.issuer := by
  simp only [authorities, List.mem_toFinset, List.mem_map, List.mem_take_iff_getElem, Option.mem_def]
  constructor
  · rintro ⟨c, ⟨j, hj, rfl⟩, rfl⟩
    have hlen : j < chain.length := by omega
    exact ⟨j, by omega, chain[j], List.getElem?_eq_getElem hlen, rfl⟩
  · rintro ⟨j, hj, above, ha, rfl⟩
    obtain ⟨hlen, rfl⟩ := List.getElem?_eq_some_iff.mp ha
    exact ⟨chain[j], ⟨j, by omega, rfl⟩, rfl⟩

/-- A hop of a run from any state is revoked under the authorities collected so far. -/
def RevokedFrom (snap : RevocationSnapshot) (atTime : Option Int) (auth : Finset Str) (l : List DelegationCredential)
    (j : Nat) : Prop :=
  ∃ cred ∈ l[j]?, ∃ digest, credentialDigest cred = .ok digest ∧ snap.Revokes digest (auth ∪ authorities l j) atTime

theorem revokedFrom_empty {snap : RevocationSnapshot} {atTime : Option Int} {chain : List DelegationCredential} {i : Nat} :
    RevokedFrom snap atTime ∅ chain i ↔ RevokedAt chain snap atTime i := by
  simp only [RevokedFrom, Finset.empty_union, RevocationSnapshot.Revokes, mem_authorities, RevokedAt, CanRevoke]
  constructor
  · rintro ⟨cred, hc, digest, hd, stmt, hs, rfl, hauth, htime⟩
    exact ⟨stmt, hs, ⟨⟨cred, hc, hd⟩, hauth⟩, htime⟩
  · rintro ⟨stmt, hs, ⟨⟨cred, hc, hd⟩, hauth⟩, htime⟩
    exact ⟨cred, hc, _, hd, stmt, hs, rfl, hauth, htime⟩

theorem revokedFrom_succ {snap : RevocationSnapshot} {atTime : Option Int} {auth : Finset Str} {c : DelegationCredential}
    {l : List DelegationCredential} {j : Nat} :
    RevokedFrom snap atTime auth (c :: l) (j + 1) ↔ RevokedFrom snap atTime (insert c.issuer auth) l j := by
  have hauth : auth ∪ authorities (c :: l) (j + 1) = insert c.issuer auth ∪ authorities l j := by simp [authorities]
  simp only [RevokedFrom, List.getElem?_cons_succ, hauth]

/-- **What a run of the revocation loop does**: it ends, or names the first hop that is revoked. -/
theorem checkHops_cases {snap : RevocationSnapshot} {atTime : Option Int} {l : List DelegationCredential}
    (hd : ∀ c ∈ l, c.Signed) (i : Nat) (auth : Finset Str) :
    (checkHops snap atTime i auth l = .ok () ∧ ∀ j, ¬ RevokedFrom snap atTime auth l j) ∨
      ∃ j, RefusesHop (checkHops snap atTime i auth l) (i + j) ∧ RevokedFrom snap atTime auth l j ∧
        ∀ k < j, ¬ RevokedFrom snap atTime auth l k := by
  induction l generalizing i auth with
  | nil => exact .inl ⟨rfl, by simp [RevokedFrom]⟩
  | cons c l ih =>
    obtain ⟨digest, hdig⟩ := (hd c (by simp)).digest
    have hzero : RevokedFrom snap atTime auth (c :: l) 0 ↔ snap.Revokes digest (insert c.issuer auth) atTime := by
      simp [RevokedFrom, hdig, authorities]
    rw [checkHops, hdig, ok_bind]
    split
    · rename_i stmt hstmt
      refine .inr ⟨0, ⟨_, rfl⟩, hzero.mpr ?_, by simp⟩
      by_contra hn
      rw [RevocationSnapshot.effectiveRevocation_none_iff.mpr hn] at hstmt
      cases hstmt
    · rename_i hnone
      have hn : ¬ RevokedFrom snap atTime auth (c :: l) 0 :=
        hzero.not.mpr (RevocationSnapshot.effectiveRevocation_none_iff.mp hnone)
      rcases ih (fun c' hc' => hd c' (by simp [hc'])) (i + 1) (insert c.issuer auth) with ⟨hok, hnr⟩ | ⟨j, href, hr, hfirst⟩
      · refine .inl ⟨hok, fun j => ?_⟩
        cases j with
        | zero => exact hn
        | succ j => exact revokedFrom_succ.not.mpr (hnr j)
      · refine .inr ⟨j + 1, by rwa [show i + (j + 1) = i + 1 + j by omega], revokedFrom_succ.mpr hr, fun k hk => ?_⟩
        cases k with
        | zero => exact hn
        | succ k => exact revokedFrom_succ.not.mpr (hfirst k (by omega))

omit [Interp] [Crypto] in
theorem RefusesHop.revoked {α : Type} {x : Result α} {i : Nat} (h : RefusesHop x i) : RefusesRevoked x := by
  obtain ⟨detail, rfl⟩ := h
  exact ⟨_, rfl, rfl⟩

omit [Interp] [Crypto] in
/-- A refusal names one hop. -/
theorem RefusesHop.unique {α : Type} {x : Result α} {i j : Nat} (hi : RefusesHop x i) (hj : RefusesHop x j) : i = j := by
  obtain ⟨d, hx⟩ := hi
  obtain ⟨d', hx'⟩ := hj
  rw [hx] at hx'
  simp only [raise, Except.error.injEq, Raised.app.injEq, CA2AError.mk.injEq, true_and, List.append_cancel_right_eq,
    List.append_cancel_left_eq] at hx'
  exact decimal_injective hx'.1

/-- **What `_check_revocation` does with a snapshot.** -/
theorem checkRevocation_cases {chain : List DelegationCredential} (hd : ∀ c ∈ chain, c.Signed) (snap : RevocationSnapshot)
    (atTime : Option Int) (now : Int) (staleness : Option Int) :
    ((∀ i, ¬ RevokedAt chain snap atTime i) ∧ ¬ RefusesRevoked (checkRevocation chain (some snap) atTime now staleness)) ∨
      ∃ i, FirstRevoked chain snap atTime i ∧ RefusesHop (checkRevocation chain (some snap) atTime now staleness) i := by
  rw [checkRevocation]
  rcases checkHops_cases hd 0 ∅ with ⟨hok, hnr⟩ | ⟨j, ⟨detail, href⟩, hr, hfirst⟩
  · refine .inl ⟨fun i => revokedFrom_empty.not.mp (hnr i), ?_⟩
    rw [hok, ok_bind]
    rintro ⟨e, he, hcls⟩
    split at he
    · cases he
      cases hcls
    · cases he
  · refine .inr ⟨j, ⟨revokedFrom_empty.mp hr, fun k hk => revokedFrom_empty.not.mp (hfirst k hk)⟩, detail, ?_⟩
    rw [href, Nat.zero_add]
    rfl

/-- What refuses a hop is what refuses it first. -/
theorem refusesHop_iff {chain : List DelegationCredential} (hd : ∀ c ∈ chain, c.Signed) {snap : RevocationSnapshot}
    {atTime : Option Int} {now : Int} {staleness : Option Int} {i : Nat} :
    RefusesHop (checkRevocation chain (some snap) atTime now staleness) i ↔ FirstRevoked chain snap atTime i := by
  rcases checkRevocation_cases hd snap atTime now staleness with ⟨hnr, href⟩ | ⟨j, hfirst, href⟩
  · exact ⟨fun h => absurd h.revoked href, fun h => absurd h.1 (hnr i)⟩
  · constructor
    · intro h
      rwa [h.unique href]
    · intro h
      obtain rfl : i = j := by
        by_contra hne
        rcases Nat.lt_or_gt_of_ne hne with hlt | hgt
        · exact hfirst.2 i hlt h.1
        · exact h.2 j hgt hfirst.1
      exact href

theorem refusesRevoked_iff {chain : List DelegationCredential} (hd : ∀ c ∈ chain, c.Signed) {snap : RevocationSnapshot}
    {atTime : Option Int} {now : Int} {staleness : Option Int} :
    RefusesRevoked (checkRevocation chain (some snap) atTime now staleness) ↔ ∃ i, RevokedAt chain snap atTime i := by
  rcases checkRevocation_cases hd snap atTime now staleness with ⟨hnr, href⟩ | ⟨j, hfirst, href⟩
  · exact ⟨fun h => absurd h href, fun h => absurd h.choose_spec (hnr _)⟩
  · exact ⟨fun _ => ⟨j, hfirst.1⟩, fun _ => href.revoked⟩

/-- A statement that can revoke a hop goes on doing so when the chain is extended. -/
theorem CanRevoke.append {chain : List DelegationCredential} {stmt : RevocationStatement} {i : Nat}
    (h : CanRevoke chain stmt i) (rest : List DelegationCredential) : CanRevoke (chain ++ rest) stmt i := by
  obtain ⟨⟨cred, hc, hd⟩, j, hj, above, ha, hr⟩ := h
  obtain ⟨hi, _⟩ := List.getElem?_eq_some_iff.mp hc
  obtain ⟨hj', _⟩ := List.getElem?_eq_some_iff.mp ha
  refine ⟨⟨cred, ?_, hd⟩, j, hj, above, ?_, hr⟩
  · rw [List.getElem?_append_left hi]
    exact hc
  · rw [List.getElem?_append_left hj']
    exact ha

/-- Below the end of a chain, what can be revoked does not depend on what follows. -/
theorem canRevoke_append_iff {chain rest : List DelegationCredential} {stmt : RevocationStatement} {i : Nat}
    (hi : i < chain.length) : CanRevoke (chain ++ rest) stmt i ↔ CanRevoke chain stmt i := by
  refine ⟨fun h => ?_, fun h => h.append rest⟩
  obtain ⟨⟨cred, hc, hd⟩, j, hj, above, ha, hr⟩ := h
  rw [List.getElem?_append_left hi] at hc
  rw [List.getElem?_append_left (by omega)] at ha
  exact ⟨⟨cred, hc, hd⟩, j, hj, above, ha, hr⟩

theorem RevokedAt.lt_length {chain : List DelegationCredential} {snap : RevocationSnapshot} {atTime : Option Int} {i : Nat}
    (h : RevokedAt chain snap atTime i) : i < chain.length := by
  obtain ⟨_, _, ⟨⟨cred, hc, _⟩, _⟩, _⟩ := h
  exact (List.getElem?_eq_some_iff.mp hc).1

theorem revokedAt_append_iff {chain rest : List DelegationCredential} {snap : RevocationSnapshot} {atTime : Option Int}
    {i : Nat} (hi : i < chain.length) : RevokedAt (chain ++ rest) snap atTime i ↔ RevokedAt chain snap atTime i := by
  simp only [RevokedAt, canRevoke_append_iff hi]

/-- Two snapshots with the same statements among those that can revoke a hop revoke the same hops. -/
theorem revokedAt_congr {chain : List DelegationCredential} {snap snap' : RevocationSnapshot} {atTime : Option Int}
    (h : ∀ stmt i, CanRevoke chain stmt i → (stmt ∈ snap'.statements ↔ stmt ∈ snap.statements)) (i : Nat) :
    RevokedAt chain snap' atTime i ↔ RevokedAt chain snap atTime i := by
  constructor
  · rintro ⟨stmt, hs, hc, ht⟩
    exact ⟨stmt, (h stmt i hc).mp hs, hc, ht⟩
  · rintro ⟨stmt, hs, hc, ht⟩
    exact ⟨stmt, (h stmt i hc).mpr hs, hc, ht⟩

/-- When the check returns, and what. -/
theorem checkRevocation_some_ok_iff {chain : List DelegationCredential} (hd : ∀ c ∈ chain, c.Signed)
    {snap : RevocationSnapshot} {atTime : Option Int} {now : Int} {staleness : Option Int} {st : RevocationStatus} :
    checkRevocation chain (some snap) atTime now staleness = .ok st ↔
      (∀ i, ¬ RevokedAt chain snap atTime i) ∧ (∀ s ∈ staleness, now - snap.asOf ≤ s) ∧
        st = { checked := true, asOf := some snap.asOf } := by
  rw [checkRevocation, bind_unit_ok_iff]
  rcases @checkHops_cases _ _ snap atTime chain hd 0 ∅ with ⟨hok, hnr⟩ | ⟨j, ⟨detail, href⟩, hr, _⟩
  · have hnr' : ∀ i, ¬ RevokedAt chain snap atTime i := fun i => revokedFrom_empty.not.mp (hnr i)
    simp only [hok, hnr', not_false_eq_true, implies_true, true_and]
    split
    · rename_i s hf
      simp only [Option.filter_eq_some_iff, decide_eq_true_eq] at hf
      simp only [raise_ne_ok, false_iff, not_and]
      intro h
      exact absurd (h s hf.1) (by omega)
    · rename_i hf
      simp only [Option.filter_eq_none_iff, decide_eq_true_eq, not_lt] at hf
      simp only [Except.ok.injEq]
      exact ⟨fun h => ⟨hf, h.symm⟩, fun h => h.2.symm⟩
  · simp only [href, raise_ne_ok, false_and, false_iff, not_and]
    intro hnr
    exact absurd (revokedFrom_empty.mp hr) (hnr j)

/-- **Revocation.** Which hop is refused, and what the refusal does not depend on. -/
theorem checkRevocation_semantics (chain : List DelegationCredential) (hd : ∀ c ∈ chain, c.Signed)
    (snap : RevocationSnapshot) (atTime : Option Int) (now : Int) (staleness : Option Int) :
    (RefusesRevoked (checkRevocation chain (some snap) atTime now staleness) ↔ ∃ i, RevokedAt chain snap atTime i) ∧
    (∀ i, RefusesHop (checkRevocation chain (some snap) atTime now staleness) i ↔ FirstRevoked chain snap atTime i) ∧
    -- order, repetition, and statements that can revoke no hop
    (∀ snap' : RevocationSnapshot,
      (∀ stmt i, CanRevoke chain stmt i → (stmt ∈ snap'.statements ↔ stmt ∈ snap.statements)) →
      (∀ i, RefusesHop (checkRevocation chain (some snap') atTime now staleness) i ↔
        RefusesHop (checkRevocation chain (some snap) atTime now staleness) i) ∧
      (snap'.asOf = snap.asOf → ∀ st, checkRevocation chain (some snap') atTime now staleness = .ok st ↔
        checkRevocation chain (some snap) atTime now staleness = .ok st)) ∧
    -- more statements, longer chains
    (∀ snap' : RevocationSnapshot, (∀ stmt ∈ snap.statements, stmt ∈ snap'.statements) →
      RefusesRevoked (checkRevocation chain (some snap) atTime now staleness) →
      RefusesRevoked (checkRevocation chain (some snap') atTime now staleness)) ∧
    ∀ rest : List DelegationCredential, (∀ c ∈ rest, c.Signed) →
      ∀ i, RefusesHop (checkRevocation chain (some snap) atTime now staleness) i →
        RefusesHop (checkRevocation (chain ++ rest) (some snap) atTime now staleness) i := by
  refine ⟨refusesRevoked_iff hd, fun i => refusesHop_iff hd, ?_, ?_, ?_⟩
  · intro snap' h
    have hsame : ∀ i, RevokedAt chain snap' atTime i ↔ RevokedAt chain snap atTime i := revokedAt_congr h
    refine ⟨fun i => ?_, fun hasOf st => ?_⟩
    · simp only [refusesHop_iff hd, FirstRevoked, hsame]
    · simp only [checkRevocation_some_ok_iff hd, hsame, hasOf]
  · intro snap' h
    rw [refusesRevoked_iff hd, refusesRevoked_iff hd]
    rintro ⟨i, stmt, hs, hc, ht⟩
    exact ⟨i, stmt, h stmt hs, hc, ht⟩
  · intro rest hrest i
    have hd' : ∀ c ∈ chain ++ rest, c.Signed := by
      intro c hc
      rcases List.mem_append.mp hc with hc | hc
      · exact hd c hc
      · exact hrest c hc
    rw [refusesHop_iff hd, refusesHop_iff hd']
    rintro ⟨hr, hfirst⟩
    have hi := hr.lt_length
    refine ⟨(revokedAt_append_iff hi).mpr hr, fun j hj => ?_⟩
    rw [revokedAt_append_iff (by omega)]
    exact hfirst j hj

end

/-! A grant withdrawn by its issuer. The digest does not depend on the text, so that it is the one the
statement names. -/

@[reducible] def Crypto.wireDigest : Crypto := { Crypto.wire with sha256 := fun _ => List.replicate 32 0 }

theorem isLowerHex_wireKey (key : UInt8) : isLowerHex 64 (hex (List.replicate 32 key)) = true := isLowerHex_hex rfl

/-- A key withdraws what has the digest that all credentials have. -/
def withdrawal (key : UInt8) (issuedAt : Nat) : RevocationStatement where
  revokedDigest := lit "sha256:" ++ hex (List.replicate 32 0)
  revoker := hex (List.replicate 32 key)
  issuedAt := issuedAt
  signature := hex (List.replicate 32 key ++ List.replicate 32 0)
  digestOk := by decide
  revokerOk := isLowerHex_wireKey key

theorem withdrawal_verified {key : UInt8} {issuedAt : Nat} (h : issuedAt ≤ maxSafeInteger) :
    @RevocationStatement.verifySignature Interp.ascii Crypto.wireDigest (withdrawal key issuedAt) = .ok () := by
  let _ := Interp.ascii
  let _ := Crypto.wireDigest
  have hb : Canonical (withdrawal key issuedAt).body := by
    simp [RevocationStatement.body, withdrawal, revocationType, clean_lit, clean_hex, h]
  obtain ⟨msg, hmsg⟩ := (exists_canonicalize_iff (ε := CA2AError)).mpr hb
  have hhex : isLowerHex 128 (withdrawal key issuedAt).signature = true := isLowerHex_hex rfl
  have hne : (withdrawal key issuedAt).signature ≠ [] := by
    intro hnil
    rw [hnil] at hhex
    exact absurd hhex (by decide)
  rw [RevocationStatement.verifySignature, if_neg hne, if_neg (by simp [hhex]), catchBuiltin_ok_iff (by simp), edCheck_ok_iff]
  exact ⟨List.replicate 32 key, List.replicate 32 key ++ List.replicate 32 0, msg, fromHex?_hex _, rfl, fromHex?_hex _, hmsg,
    decide_eq_true ⟨List.length_replicate, rfl⟩⟩

/-- A snapshot that holds the withdrawal by a key, if one was made by then. -/
def withdrawn (asOf : Nat) (key : UInt8) (issuedAt : Option Nat) (h : ∀ t ∈ issuedAt, t ≤ maxSafeInteger) :
    @RevocationSnapshot Interp.ascii Crypto.wireDigest :=
  @RevocationSnapshot.mk Interp.ascii Crypto.wireDigest asOf (issuedAt.toList.map (withdrawal key)) (by
    intro s hs
    obtain ⟨t, ht, rfl⟩ := List.mem_map.mp hs
    exact withdrawal_verified (h t (by simpa using ht)))

theorem digest_wireDigest {c : DelegationCredential} (h : @DelegationCredential.Signed Interp.ascii Crypto.wireDigest c) :
    @credentialDigest Interp.ascii Crypto.wireDigest c = .ok (lit "sha256:" ++ hex (List.replicate 32 0)) := by
  let _ := Interp.ascii
  let _ := Crypto.wireDigest
  obtain ⟨_, _, _, msg, _, _, _, hmsg, _⟩ := h
  rw [credentialDigest, hmsg]
  rfl

/-- A delegation that its issuer has withdrawn by the time of the audit is refused, and not the grant before it, however old
the snapshot. -/
theorem checkRevocation_withdrawn :
    let _ := Interp.ascii
    let _ := Crypto.wireDigest
    RefusesHop (checkRevocation [wireGrant, wireDelegation] (some (withdrawn 10 2 (some 10) (by decide))) (some 900) 900
      (some 60)) 1 := by
  intro _ _
  have hsigned : ∀ c ∈ [wireGrant, wireDelegation], c.Signed := by
    intro c hc
    rcases List.mem_pair.mp hc with rfl | rfl
    · exact wireGrant_signed
    · exact wireDelegation_signed
  have hdigest := digest_wireDigest wireDelegation_signed
  refine ((checkRevocation_semantics [wireGrant, wireDelegation] hsigned _ (some 900) 900 (some 60)).2.1 1).mpr
    ⟨⟨withdrawal 2 10, ?_, ⟨⟨wireDelegation, rfl, hdigest⟩, ?_⟩, ?_⟩, fun j hj => ?_⟩
  · simp [withdrawn]
  · exact ⟨1, le_rfl, wireDelegation, rfl, rfl⟩
  · simp [withdrawal]
  · -- the delegate has no say over the grant
    obtain rfl : j = 0 := by omega
    intro hrevoked
    obtain ⟨stmt, hmem, ⟨_, k, hk, c, hc, hrevoker⟩, _⟩ := hrevoked
    obtain rfl : stmt = withdrawal 2 10 := by simpa [withdrawn] using hmem
    obtain rfl : k = 0 := by omega
    cases hc
    exact absurd hrevoker (by decide +kernel)

/-! ## Live decisions and audits

The two differ in the time the windows and the staleness are judged at, which an audit at the time of
the decision makes the same, and in the statements that count. -/

section
variable [Interp] [Crypto]

/-- What a chain that is not refused is reported as. -/
def establishedStatus : Option RevocationSnapshot → RevocationStatus
  | none => revocationNotChecked
  | some snap => { checked := true, asOf := some snap.asOf }

theorem verifyChain_status {chain : List DelegationCredential} {maxDepth : Int} {roots : Finset Str}
    {atTime : Option Int} {clock : Int} {revocations : Option RevocationSnapshot} {staleness : Option Int}
    {st : RevocationStatus} (h : verifyChain chain maxDepth roots atTime clock revocations staleness = .ok st) :
    st = establishedStatus revocations := by
  have hsigned := (exists_verifyChain_iff.mp ⟨st, h⟩).2.2.signed
  unfold verifyChain at h
  split at h
  · cases h
  split at h
  · cases h
  cases chain with
  | nil => cases h
  | cons root rest =>
    simp only at h
    split at h
    · cases h
    rw [bind_unit_ok_iff] at h
    obtain ⟨-, h⟩ := h
    cases revocations with
    | none =>
      cases staleness with
      | none =>
        simp only [checkRevocation, Except.ok.injEq] at h
        exact h.symm
      | some s => cases h
    | some snap => exact ((checkRevocation_some_ok_iff hsigned).mp h).2.2

/-- **When the verifier returns, and what.** -/
theorem verifyChain_ok_iff {chain : List DelegationCredential} {maxDepth : Int} {roots : Finset Str}
    {atTime : Option Int} {clock : Int} {revocations : Option RevocationSnapshot} {staleness : Option Int}
    {st : RevocationStatus} :
    verifyChain chain maxDepth roots atTime clock revocations staleness = .ok st ↔
      (∀ t ∈ atTime, 0 ≤ t) ∧ (∀ s ∈ staleness, 0 ≤ s) ∧
      ChainAccepted chain maxDepth roots atTime (atTime.getD clock) revocations staleness ∧
      st = establishedStatus revocations := by
  constructor
  · intro h
    obtain ⟨ht, hs, hacc⟩ := exists_verifyChain_iff.mp ⟨st, h⟩
    exact ⟨ht, hs, hacc, verifyChain_status h⟩
  · rintro ⟨ht, hs, hacc, rfl⟩
    obtain ⟨st, h⟩ := exists_verifyChain_iff.mpr ⟨ht, hs, hacc⟩
    rw [h, verifyChain_status h]

/-- The conditions keep under another snapshot and another way to count statements, when whatever
then revokes did so before and the snapshot is no older. -/
theorem ChainAccepted.change {chain : List DelegationCredential} {maxDepth now : Int} {roots : Finset Str}
    {atTime atTime' staleness : Option Int} {revocations revocations' : Option RevocationSnapshot}
    (h : ChainAccepted chain maxDepth roots atTime now revocations staleness)
    (hrev : ∀ snap' ∈ revocations', ∃ snap ∈ revocations, ∀ digest auth,
      snap'.Revokes digest auth atTime' → snap.Revokes digest auth atTime)
    (hfresh : ∀ snap ∈ revocations, ∃ snap' ∈ revocations', snap.asOf ≤ snap'.asOf) :
    ChainAccepted chain maxDepth roots atTime' now revocations' staleness where
  nonempty := h.nonempty
  root_trusted := h.root_trusted
  signed := h.signed
  inWindow := h.inWindow
  ids_distinct := h.ids_distinct
  depth_eq := h.depth_eq
  root_parent := h.root_parent
  linked := h.linked
  not_revoked := by
    intro snap' hsnap' i hi d hd hr
    obtain ⟨snap, hsnap, himp⟩ := hrev snap' hsnap'
    exact h.not_revoked snap hsnap i hi d hd (himp _ _ hr)
  fresh := by
    intro s hs
    obtain ⟨snap, hsnap, hle⟩ := h.fresh s hs
    obtain ⟨snap', hsnap', hasOf⟩ := hfresh snap hsnap
    exact ⟨snap', hsnap', by omega⟩

/-- **An audit replays the decision.** A live decision at `t` is an audit at `t`, with the snapshot
of the decision or a later one whose further statements were made after `t`; an audit at `t` is
the live decision when no statement is from after `t`. -/
theorem audit_replays_decision (chain : List DelegationCredential) (maxDepth : Int) (roots : Finset Str)
    (staleness : Option Int) (snap : RevocationSnapshot) (t : Nat) :
    (∀ st, verifyChain chain maxDepth roots none t (some snap) staleness = .ok st →
      (∀ clock, verifyChain chain maxDepth roots (some t) clock (some snap) staleness = .ok st) ∧
      ∀ snap' : RevocationSnapshot, snap.asOf ≤ snap'.asOf →
        (∀ stmt ∈ snap'.statements, stmt ∈ snap.statements ∨ t < stmt.issuedAt) →
        ∀ clock, ∃ st', verifyChain chain maxDepth roots (some t) clock (some snap') staleness = .ok st') ∧
    ((∀ stmt ∈ snap.statements, stmt.issuedAt ≤ t) →
      ∀ clock st, verifyChain chain maxDepth roots (some t) clock (some snap) staleness = .ok st →
        verifyChain chain maxDepth roots none t (some snap) staleness = .ok st) := by
  have hpos : ∀ t' ∈ (some (t : Int)), 0 ≤ t' := by simp
  have later : ∀ st, verifyChain chain maxDepth roots none t (some snap) staleness = .ok st →
      ∀ snap' : RevocationSnapshot, snap.asOf ≤ snap'.asOf →
        (∀ stmt ∈ snap'.statements, stmt ∈ snap.statements ∨ t < stmt.issuedAt) →
        ∀ clock, verifyChain chain maxDepth roots (some t) clock (some snap') staleness = .ok (establishedStatus (some snap')) := by
    intro st h snap' hasOf hstmts clock
    obtain ⟨-, hs, hacc, -⟩ := verifyChain_ok_iff.mp h
    refine verifyChain_ok_iff.mpr ⟨hpos, hs, hacc.change ?_ ?_, rfl⟩
    · rintro _ ⟨⟩
      refine ⟨snap, rfl, ?_⟩
      rintro digest auth ⟨stmt, hmem, hd, ha, htime⟩
      rcases hstmts stmt hmem with hold | hnew
      · exact ⟨stmt, hold, hd, ha, by simp⟩
      · exact absurd (htime t rfl) (by omega)
    · rintro _ ⟨⟩
      exact ⟨snap', rfl, hasOf⟩
  refine ⟨fun st h => ⟨fun clock => ?_, fun snap' hasOf hstmts clock => ⟨_, later st h snap' hasOf hstmts clock⟩⟩, ?_⟩
  · rw [verifyChain_status h]
    exact later st h snap le_rfl (fun stmt hmem => .inl hmem) clock
  · intro hbefore clock st h
    obtain ⟨-, hs, hacc, hst⟩ := verifyChain_ok_iff.mp h
    refine verifyChain_ok_iff.mpr ⟨by simp, hs, hacc.change ?_ ?_, hst⟩
    · rintro _ ⟨⟩
      refine ⟨snap, rfl, ?_⟩
      rintro digest auth ⟨stmt, hmem, hd, ha, -⟩
      refine ⟨stmt, hmem, hd, ha, ?_⟩
      rintro _ ⟨⟩
      exact_mod_cast hbefore stmt hmem
    · rintro _ ⟨⟩
      exact ⟨snap, rfl, le_rfl⟩

end

/-- A delegation withdrawn after it was used was valid when it was used. -/
theorem audit_wireDelegation :
    let _ := Interp.ascii
    let _ := Crypto.wireDigest
    ∃ st, verifyChain [wireGrant, wireDelegation] 8 {wireGrant.issuer} (some 100) 5000
      (some (withdrawn 200 2 (some 150) (by decide))) (some 60) = .ok st := by
  intro _ _
  have hgrant : wireGrant.Signed := wireGrant_signed
  have hdelegation : wireDelegation.Signed := wireDelegation_signed
  have hacc : ChainAccepted [wireGrant, wireDelegation] 8 {wireGrant.issuer} none 100 (some (withdrawn 90 1 none (by simp)))
      (some 60) := wireChain_accepted hgrant hdelegation (by simp)
    (by simp [withdrawn, RevocationSnapshot.Revokes]) (by simp [withdrawn])
  obtain ⟨st, hst⟩ := exists_verifyChain_iff.mpr ⟨by simp, by simp, hacc⟩
  exact ((audit_replays_decision _ _ _ _ _ 100).1 st hst).2 (withdrawn 200 2 (some 150) (by decide)) (by decide)
    (by simp [withdrawn, withdrawal]) 5000

end Ca2a
