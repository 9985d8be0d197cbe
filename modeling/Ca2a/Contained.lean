/-
Which exceptions leave the functions behind `PeerNode.handle`.

A computation is `Contained` when whatever it raises is a `CA2AError`, the
only thing a transport catches. Being contained goes through a chain of
steps (`contained_bind_iff`) and through a handler
(`contained_catchBuiltin_iff`, `contained_catchClass_iff`) exactly, so each
function has one lemma, and where a function is not contained its lemma
says on which input.
-/
import Ca2a.Chain
import Ca2a.Node

namespace Ca2a

open Py

/-- Whatever the computation raises is one of the runtime's own errors. -/
def Contained {α : Type} (x : Result α) : Prop := Spec x (fun _ => True) Exc.isCA2A

/-- What a handler of these classes leaves contained. -/
def Catches (kinds : ExcKind → Bool) (e : Exc) : Prop := e.isCA2A ∨ ∃ k t, e = .builtin k t ∧ kinds k = true

section
variable {α β : Type} {x : Result α}

@[simp] theorem contained_ok (a : α) : Contained (.ok a) := trivial

@[simp] theorem contained_app (e : CA2AError) : Contained (.error (.app e) : Result α) := trivial

@[simp] theorem contained_raise (cls : ErrorClass) (m : Str) (d : Option Str) : Contained (raise cls m d : Result α) :=
  trivial

@[simp] theorem not_contained_builtin (k : ExcKind) (t : Str) : ¬ Contained (.error (.builtin k t) : Result α) :=
  fun h => h

theorem contained_bind_iff {f : α → Result β} :
    Contained (x >>= f) ↔ Contained x ∧ ∀ a, x = .ok a → Contained (f a) :=
  spec_bind_iff

theorem contained_ite {c : Prop} [Decidable c] {y : Result α} (hx : c → Contained x) (hy : ¬ c → Contained y) :
    Contained (if c then x else y) := by
  split
  · exact hx ‹_›
  · exact hy ‹_›

/-- A handler contains exactly the exceptions it catches. -/
theorem contained_catchBuiltin_iff {kinds : ExcKind → Bool} {handler : Str → Result α}
    (hh : ∀ t, Contained (handler t)) :
    Contained (catchBuiltin kinds x handler) ↔ Spec x (fun _ => True) (Catches kinds) := by
  cases x with
  | ok a => exact Iff.rfl
  | error e =>
    cases e with
    | app e => exact iff_of_true trivial (.inl trivial)
    | builtin k t =>
      by_cases hk : kinds k = true
      · simp [catchBuiltin, hk, hh, Catches]
      · simp [catchBuiltin, hk, Catches, Exc.isCA2A]

theorem contained_catchClass_iff {cls : ErrorClass} {handler : CA2AError → Result α}
    (hh : ∀ e, Contained (handler e)) : Contained (catchClass cls x handler) ↔ Contained x := by
  cases x with
  | ok a => exact Iff.rfl
  | error e =>
    cases e with
    | app e =>
      refine iff_of_true ?_ trivial
      simp only [catchClass]
      exact contained_ite (fun _ => hh e) fun _ => contained_app e
    | builtin k t => exact Iff.rfl

/-- What is contained and raises one class of the runtime's own errors raises that class only. -/
theorem Contained.isClass {cls : ErrorClass} (h : Contained x)
    (hraises : Spec x (fun _ => True) fun e => e.isCA2A → e.isClass cls) : Spec x (fun _ => True) (Exc.isClass cls) := by
  cases x with
  | ok a => exact trivial
  | error e => exact hraises h

theorem contained_of_isClass {cls : ErrorClass} {post : α → Prop} (h : Spec x post (Exc.isClass cls)) : Contained x := by
  refine h.mono (fun _ _ => trivial) fun e he => ?_
  cases e with
  | builtin k t => exact he.elim
  | app e => exact trivial

theorem Contained.caught {kinds : ExcKind → Bool} (h : Contained x) : Spec x (fun _ => True) (Catches kinds) :=
  h.mono (fun _ _ => trivial) fun _ he => .inl he

end

section
variable [Interp]

/-! ## Parsing -/

omit [Interp] in
theorem contained_textField (p : Str → Bool) (m : String) (j : Json) :
    Contained (DelegationCredential.textField p m j) := by
  unfold DelegationCredential.textField
  split
  · exact contained_ite (fun _ => contained_ok _) fun _ => contained_raise _ _ _
  · exact contained_raise _ _ _

omit [Interp] in
theorem contained_scopeField (j : Json) : Contained (DelegationCredential.scopeField j) := by
  unfold DelegationCredential.scopeField
  split
  · split
    · exact contained_ite (fun _ => contained_ok _) fun _ => contained_raise _ _ _
    · exact contained_raise _ _ _
  · exact contained_raise _ _ _

omit [Interp] in
theorem contained_depthField (j : Json) : Contained (DelegationCredential.depthField j) := by
  unfold DelegationCredential.depthField
  split
  · exact contained_ite (fun _ => contained_ok _) fun _ => contained_raise _ _ _
  · exact contained_raise _ _ _

omit [Interp] in
theorem contained_parentField (j : Json) : Contained (DelegationCredential.parentField j) := by
  unfold DelegationCredential.parentField
  split
  · exact contained_ok _
  · exact contained_ite (fun _ => contained_raise _ _ _) fun _ => contained_ok _
  · exact contained_raise _ _ _

omit [Interp] in
theorem contained_boundField (d : Dict Json) (name : String) : Contained (DelegationCredential.boundField d name) := by
  unfold DelegationCredential.boundField
  split
  · exact contained_ok _
  · exact contained_ok _
  · exact contained_raise _ _ _

theorem contained_fromDict (j : Json) : Contained (DelegationCredential.fromDict j) := by
  unfold DelegationCredential.fromDict
  split
  · refine contained_ite (fun _ => contained_raise _ _ _) fun _ => ?_
    simp only [contained_bind_iff]
    refine ⟨contained_textField _ _ _, fun _ _ => ⟨contained_textField _ _ _, fun _ _ => ⟨contained_textField _ _ _, fun _ _ =>
      ⟨contained_scopeField _, fun _ _ => ⟨contained_depthField _, fun _ _ => ⟨contained_parentField _, fun _ _ =>
      ⟨contained_textField _ _ _, fun _ _ => ⟨contained_boundField _ _, fun _ _ => ⟨contained_boundField _ _, fun _ _ =>
      ?_⟩⟩⟩⟩⟩⟩⟩⟩⟩
    split
    · exact contained_ok _
    · exact contained_raise _ _ _
  · exact contained_raise _ _ _

theorem contained_parseHops (i : Nat) (hops : List Json) : Contained (parseHops i hops) := by
  induction hops generalizing i with
  | nil => exact contained_ok _
  | cons hop hops ih =>
    have hhop : Contained (parseHop i hop) := by
      unfold parseHop
      split
      · exact (contained_catchClass_iff fun _ => contained_raise _ _ _).mpr (contained_fromDict _)
      · exact contained_raise _ _ _
    simp only [parseHops, contained_bind_iff]
    exact ⟨hhop, fun _ _ => ⟨ih _, fun _ _ => contained_ok _⟩⟩

theorem b64urlDecode_spec (field : Str) (value : Json) :
    Spec (b64urlDecode field value) (fun _ => True) (Exc.isClass .transportError) := by
  unfold b64urlDecode
  split
  · exact rfl
  · split
    · exact trivial
    · exact rfl

theorem contained_b64urlDecode (field : Str) (value : Json) : Contained (b64urlDecode field value) :=
  contained_of_isClass (b64urlDecode_spec field value)

/-- What is raised inside the handler of `parse_channel_offer`. -/
def OfferRaises (e : Exc) : Prop := e.isClass .transportError ∨ ∃ k t, e = .builtin k t ∧ offerErrors k = true

theorem containsKey_spec (key : Str) (j : Json) : Spec (containsKey key j) (fun _ => True) OfferRaises := by
  cases j with
  | obj | arr | str => exact trivial
  | _ => exact .inr ⟨_, _, rfl, rfl⟩

theorem subscript_spec (j : Json) (key : Str) : Spec (subscript j key) (fun _ => True) OfferRaises := by
  unfold subscript
  split
  · split
    · exact trivial
    · exact .inr ⟨_, _, rfl, rfl⟩
  · exact .inr ⟨_, _, rfl, rfl⟩

omit [Interp] in
theorem getDefault_spec (j : Json) (key : Str) (default : Json) :
    Spec (getDefault j key default) (fun _ => True) OfferRaises := by
  unfold getDefault
  split
  · exact trivial
  · exact .inr ⟨_, _, rfl, rfl⟩

theorem evidenceField_spec (att : Json) (field : Str) : Spec (evidenceField att field) (fun _ => True) OfferRaises := by
  refine (containsKey_spec _ _).bind fun present _ => ?_
  split
  · refine (subscript_spec _ _).bind fun value _ => ?_
    exact ((b64urlDecode_spec _ _).mono (fun _ _ => trivial) fun _ he => .inl he).bind fun _ _ => trivial
  · exact trivial

theorem roleField_spec (role : Json) : Spec (roleField role) (· ∈ roles) OfferRaises := by
  unfold roleField
  split
  · split
    · assumption
    · exact .inl rfl
  · exact .inr ⟨_, _, rfl, rfl⟩
  · exact .inr ⟨_, _, rfl, rfl⟩
  · exact .inl rfl

/-- An offer has a known role, and whatever else was sent is refused with a `TransportError`. -/
theorem parseChannelOffer_spec (data : Json) :
    Spec (parseChannelOffer data) (fun offer => offer.report.role ∈ roles) (Exc.isClass .transportError) := by
  unfold parseChannelOffer
  split
  · refine catchBuiltin_spec ?_ fun _ => rfl
    refine (subscript_spec _ _).bind fun publicKey _ => (subscript_spec _ _).bind fun att _ => ?_
    refine (evidenceField_spec _ _).bind fun _ _ => (evidenceField_spec _ _).bind fun _ _ => ?_
    refine (evidenceField_spec _ _).bind fun _ _ => (evidenceField_spec _ _).bind fun _ _ => ?_
    refine (getDefault_spec _ _ _).bind fun role _ => (roleField_spec _).bind fun _ hrole => ?_
    refine (subscript_spec _ _).bind fun _ _ => (subscript_spec _ _).bind fun _ _ => ?_
    exact (subscript_spec _ _).bind fun _ _ => (subscript_spec _ _).bind fun _ _ => hrole
  · exact rfl

theorem contained_parseChannelOffer (data : Json) : Contained (parseChannelOffer data) :=
  contained_of_isClass (parseChannelOffer_spec data)

omit [Interp] in
theorem contained_possessionFromDict (data : Json) : Contained (CallerPossession.fromDict data) := by
  unfold CallerPossession.fromDict
  repeat' split
  all_goals first | exact contained_ok _ | exact contained_raise _ _ _

omit [Interp] in
theorem contained_proofFromDict (data : Json) : Contained (HolderProof.fromDict data) := by
  unfold HolderProof.fromDict
  repeat' split
  all_goals first | exact contained_ok _ | exact contained_raise _ _ _

omit [Interp] in
theorem contained_requiredText (m : String) (value : Option Json) : Contained (requiredText m value) := by
  unfold requiredText
  split
  · exact contained_ok _
  · exact contained_raise _ _ _

omit [Interp] in
theorem contained_optionalField {α : Type} {parse : Json → Result α} (h : ∀ j, Contained (parse j))
    (value : Option Json) : Contained (optionalField value parse) := by
  unfold optionalField
  split
  · exact contained_ok _
  · exact contained_ok _
  · exact contained_bind_iff.mpr ⟨h _, fun _ _ => contained_ok _⟩

theorem contained_chainField (value : Option Json) : Contained (chainField value) := by
  unfold chainField
  split
  · exact contained_raise _ _ _
  · exact contained_raise _ _ _
  · exact contained_parseHops _ _
  · exact contained_raise _ _ _

omit [Interp] in
theorem contained_parentHashField (value : Option Json) : Contained (parentHashField value) := by
  unfold parentHashField
  split
  · exact contained_raise _ _ _
  · exact contained_ok _
  · exact contained_ok _
  · exact contained_raise _ _ _

theorem contained_sealedField (j : Json) : Contained (sealedField j) := by
  unfold sealedField
  split
  · exact contained_b64urlDecode _ _
  · exact contained_raise _ _ _

omit [Interp] in
theorem contained_possessionField (j : Json) : Contained (possessionField j) :=
  (contained_catchClass_iff fun _ => contained_raise _ _ _).mpr (contained_possessionFromDict j)

/-- No message makes the parser raise anything else. -/
theorem contained_parsePeerRequest (message : Dict Json) : Contained (parsePeerRequest message) := by
  unfold parsePeerRequest
  refine contained_ite (fun _ => contained_ok _) fun _ => ?_
  simp only [contained_bind_iff]
  exact ⟨contained_chainField _, fun _ _ => ⟨contained_requiredText _ _, fun _ _ => ⟨contained_requiredText _ _, fun _ _ =>
    ⟨contained_parentHashField _, fun _ _ => ⟨contained_optionalField contained_sealedField _, fun _ _ =>
    ⟨contained_optionalField contained_parseChannelOffer _, fun _ _ =>
    ⟨contained_optionalField contained_possessionField _, fun _ _ =>
    ⟨contained_optionalField contained_proofFromDict _, fun _ _ => contained_ok _⟩⟩⟩⟩⟩⟩⟩⟩

/-! ## Encoding -/

theorem contained_utf8_iff {s : Str} : Contained (utf8 s) ↔ Clean s := by
  rw [← utf8?_isSome_iff]
  unfold utf8
  split <;> simp_all

theorem contained_canonicalize_iff {j : Json} : Contained (canonicalize j) ↔ Canonical j := by
  rw [← exists_canonicalize_iff (ε := CA2AError)]
  have h := canonicalize_spec (ε := CA2AError) j
  cases hc : canonicalize (ε := CA2AError) j with
  | ok b => simp
  | error e =>
    cases e with
    | builtin k t => simp
    | app e => exact ((hc ▸ h : Spec (.error (.app e)) _ (CanonicalError j))).elim

variable [Crypto]

/-- Checking a signature over a body without floats raises what its callers catch. -/
theorem edCheck_spec {key sig : Str} {body : Json} (hb : body.NoFloat) :
    Spec (edCheck key sig body) (fun _ => True) fun e => ∃ k t, e = .builtin k t ∧ signatureErrors k = true := by
  refine (fromHex_spec (fun _ => ⟨_, _, rfl, rfl⟩) key).bind fun pub _ => ?_
  split
  · exact ⟨_, _, rfl, rfl⟩
  · refine (fromHex_spec (fun _ => ⟨_, _, rfl, rfl⟩) sig).bind fun s _ =>
      Spec.bind ((canonicalize_spec body).mono (fun _ _ => trivial) ?_) fun msg _ => ?_
    · intro e he
      cases e with
      | app e => exact he.elim
      | builtin k t =>
        rcases he with he | he
        · exact ⟨k, t, rfl, by simp [signatureErrors, he]⟩
        · exact absurd hb he.2
    · split
      · exact trivial
      · exact ⟨_, _, rfl, rfl⟩

omit [Interp] [Crypto] in
@[simp] theorem noFloat_optStr (o : Option Str) : (optStr o).NoFloat := by cases o <;> trivial

omit [Interp] [Crypto] in
@[simp] theorem noFloat_strArr (l : List Str) : (strArr l).NoFloat := by
  simp [strArr]

/-! ## The chain -/

omit [Interp] [Crypto] in
theorem DelegationCredential.noFloat_body (c : DelegationCredential) : c.body.NoFloat := by
  cases hb : c.notBefore <;> cases ha : c.notAfter <;> simp [body, hb, ha, optField]

theorem contained_verifySignature (c : DelegationCredential) : Contained c.verifySignature := by
  unfold DelegationCredential.verifySignature
  refine contained_ite (fun _ => contained_raise _ _ _) fun _ => ?_
  exact (contained_catchBuiltin_iff fun _ => contained_raise _ _ _).mpr
    ((edCheck_spec c.noFloat_body).mono (fun _ _ => trivial) fun _ h => .inr h)

omit [Interp] [Crypto] in
theorem contained_checkWindow (now : Int) (i : Nat) (c : DelegationCredential) : Contained (checkWindow now i c) := by
  unfold checkWindow
  repeat' split
  all_goals first | exact contained_raise _ _ _ | exact contained_ok _

omit [Crypto] in
theorem contained_checkLink (i : Nat) (c : DelegationCredential) (prev : Option DelegationCredential) :
    Contained (checkLink i c prev) := by
  unfold checkLink
  repeat' split
  all_goals first | exact contained_raise _ _ _ | exact contained_ok _

theorem contained_verifyHops (maxDepth now : Int) (i : Nat) (seen : Finset Str) (prev : Option DelegationCredential)
    (l : List DelegationCredential) : Contained (verifyHops maxDepth now i seen prev l) := by
  induction l generalizing i seen prev with
  | nil => exact contained_ok _
  | cons c l ih =>
    simp only [verifyHops, checkHop, contained_bind_iff]
    refine ⟨⟨contained_verifySignature c, fun _ _ => ⟨contained_checkWindow _ _ _, fun _ _ => ?_⟩⟩, fun _ _ => ih _ _ _⟩
    refine contained_ite (fun _ => contained_raise _ _ _) fun _ => ?_
    exact contained_ite (fun _ => contained_raise _ _ _) fun _ => contained_checkLink _ _ _

theorem contained_checkHops (snap : RevocationSnapshot) (atTime : Option Int) (i : Nat) (auth : Finset Str)
    {l : List DelegationCredential} (h : ∀ c ∈ l, c.Signed) : Contained (checkHops snap atTime i auth l) := by
  induction l generalizing i auth with
  | nil => exact contained_ok _
  | cons c l ih =>
    -- the signature was verified over the body, so its digest is defined
    obtain ⟨d, hd⟩ := (h c (by simp)).digest
    rw [checkHops, hd, ok_bind]
    split
    · exact contained_raise _ _ _
    · exact ih _ _ fun c' hc' => h c' (by simp [hc'])

/-- `verify_chain` is contained unless the time or the bound on staleness is negative. -/
theorem contained_verifyChain_iff {chain : List DelegationCredential} {maxDepth : Int} {trusted : Finset Str}
    {atTime : Option Int} {clock : Int} {revocations : Option RevocationSnapshot} {staleness : Option Int} :
    Contained (verifyChain chain maxDepth trusted atTime clock revocations staleness) ↔
      (∀ t ∈ atTime, 0 ≤ t) ∧ ∀ s ∈ staleness, 0 ≤ s := by
  by_cases ht : ∃ t ∈ atTime, t < 0
  · unfold verifyChain
    rw [if_pos ht]
    obtain ⟨t, ht, hneg⟩ := ht
    exact iff_of_false (not_contained_builtin _ _) fun h => absurd (h.1 t ht) (by omega)
  by_cases hs : ∃ s ∈ staleness, s < 0
  · unfold verifyChain
    rw [if_neg ht, if_pos hs]
    obtain ⟨s, hs, hneg⟩ := hs
    exact iff_of_false (not_contained_builtin _ _) fun h => absurd (h.2 s hs) (by omega)
  · unfold verifyChain
    rw [if_neg ht, if_neg hs]
    refine iff_of_true ?_ ⟨fun t hm => not_lt.mp fun hlt => ht ⟨t, hm, hlt⟩, fun s hm => not_lt.mp fun hlt => hs ⟨s, hm, hlt⟩⟩
    cases chain with
    | nil => exact contained_raise _ _ _
    | cons root rest =>
      refine contained_ite (fun _ => contained_raise _ _ _) fun _ => ?_
      refine contained_bind_iff.mpr ⟨contained_verifyHops _ _ _ _ _ _, fun _ hops => ?_⟩
      have hsigned := fun c hc => ((verifyHops_ok_iff.mp hops).1 c hc).1
      unfold checkRevocation
      split
      · split
        · exact contained_raise _ _ _
        · exact contained_ok _
      · refine contained_bind_iff.mpr ⟨contained_checkHops _ _ _ _ hsigned, fun _ _ => ?_⟩
        split
        · exact contained_raise _ _ _
        · exact contained_ok _

/-! ## Challenges -/

omit [Crypto] in
/-- A challenge that gets as far as the MAC over its random part, which cannot be encoded. -/
def DirtyChallenge (challenge : Str) : Prop :=
  ∃ expiry rand mac, challenge.splitOn (cp '.') = [lit "v1", expiry, rand, mac] ∧ isLowerHex 64 mac = true ∧
    int? expiry ≠ none ∧ ¬ Clean rand

omit [Crypto] in
theorem not_dirtyChallenge {challenge : Str} (h : Clean challenge) : ¬ DirtyChallenge challenge := by
  intro h
  obtain ⟨expiry, rand, mac, hsplit, _, _, hrand⟩ := h
  refine hrand fun c hc => h c ?_
  have hjoin : [cp '.'].intercalate (challenge.splitOn (cp '.')) = challenge := List.intercalate_splitOn (cp '.')
  rw [← hjoin, hsplit]
  simp [List.intercalate, hc]

theorem contained_challengeMac_iff {secret : Bytes} {expiry : Int} {rand : Str} :
    Contained (challengeMac secret expiry rand) ↔ Clean rand := by
  rw [challengeMac, contained_bind_iff, contained_utf8_iff]
  simp

/-- Apart from that, `verify_challenge` raises `AttestationFailed` only. -/
theorem verifyChallenge_spec {challenge : Str} (h : ¬ DirtyChallenge challenge) (secret : Bytes) (now : Int) :
    Spec (verifyChallenge secret challenge now) (fun _ => True) (Exc.isClass .attestationFailed) := by
  unfold verifyChallenge
  split
  · rename_i version expiryStr rand mac hsplit
    split
    · exact rfl
    · rename_i hversion
      obtain rfl : version = lit "v1" := not_not.mp hversion
      split
      · exact rfl
      · rename_i hmac
        split
        · exact rfl
        · rename_i expiry hexp
          have hclean : Clean rand := by
            by_contra hrand
            exact h ⟨expiryStr, rand, mac, hsplit, by simpa using hmac, by simp [hexp], hrand⟩
          have hmac : Spec (challengeMac secret expiry rand) (fun _ => True) (Exc.isClass .attestationFailed) :=
            (contained_challengeMac_iff.mpr hclean).isClass ((utf8_spec (fun _ => False.elim) _).bind fun _ _ => trivial)
          refine hmac.bind fun expected _ => ?_
          split
          · exact rfl
          · split
            · exact rfl
            · exact trivial
  · exact rfl

theorem contained_verifyChallenge_iff {secret : Bytes} {challenge : Str} {now : Int} :
    Contained (verifyChallenge secret challenge now) ↔ ¬ DirtyChallenge challenge := by
  constructor
  · rintro h ⟨expiry, rand, mac, hsplit, hmac, hexp, hrand⟩
    obtain ⟨e, he⟩ := Option.ne_none_iff_exists'.mp hexp
    unfold verifyChallenge at h
    rw [hsplit] at h
    simp only [ne_eq, not_true_eq_false, if_false, hmac, Bool.true_eq_false, he, contained_bind_iff,
      contained_challengeMac_iff] at h
    exact hrand h.1
  · intro h
    refine (verifyChallenge_spec h secret now).mono (fun _ _ => trivial) fun e he => ?_
    cases e with
    | builtin k t => exact he.elim
    | app e => exact trivial

/-- A challenge that verifies can be encoded. -/
theorem clean_of_verifyChallenge {secret : Bytes} {challenge : Str} {now : Int}
    (h : verifyChallenge secret challenge now = .ok ()) : Clean challenge := by
  have hdirty : ¬ DirtyChallenge challenge := contained_verifyChallenge_iff.mp (by rw [h]; exact contained_ok _)
  unfold verifyChallenge at h
  split at h
  · rename_i version expiryStr rand mac hsplit
    split at h
    · cases h
    · rename_i hversion
      obtain rfl : version = lit "v1" := not_not.mp hversion
      split at h
      · cases h
      · rename_i hmac
        split at h
        · cases h
        · rename_i expiry hexp
          have hrand : Clean rand := by
            by_contra hrand
            exact hdirty ⟨expiryStr, rand, mac, hsplit, by simpa using hmac, by simp [hexp], hrand⟩
          have hmac : Clean mac := clean_of_isLowerHex (Bool.not_eq_false _ ▸ hmac)
          intro c hc
          by_cases hdot : c = cp '.'
          · rw [hdot]; exact scalar_cp _
          · obtain ⟨g, hg, hcg⟩ := mem_splitOn hc hdot
            rw [hsplit] at hg
            simp only [List.mem_cons, List.not_mem_nil, or_false] at hg
            rcases hg with rfl | rfl | rfl | rfl
            · exact clean_lit _ c hcg
            · exact int?_clean hexp c hcg
            · exact hrand c hcg
            · exact hmac c hcg
  · cases h

end

end Ca2a
