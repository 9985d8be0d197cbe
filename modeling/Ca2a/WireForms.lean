/-
What the parsers of the wire forms accept.

`AdapterRoundTrip` goes from a value to its wire form and back. This is the
other direction, from a wire form that is accepted to the value and back to
the text. A credential is written in one way, but for the order of its scope,
and an offer has one of two roles. base64url is not so strict: the bits of the
last digit that no octet takes are dropped, whatever they are (`SpareBits`).
-/
import Ca2a.AdapterRoundTrip
import Ca2a.Contained

namespace Ca2a

open Py

/-! ## base64url -/

/-- A digit is the one character of its value. -/
theorem b64Char_of_b64Val? {c : CodePoint} {n : Nat} (h : b64Val? c = some n) : n < 64 ∧ b64Char n = c := by
  have hlt : n < 64 := by
    unfold b64Val? at h
    split_ifs at h <;> simp only [Option.some.injEq] at h <;> omega
  refine ⟨hlt, ?_⟩
  have h' := b64Val?_b64Char hlt
  generalize b64Char n = c' at h'
  refine Fin.ext ?_
  have hdash : (cp '-').val = 0x2D := rfl
  have hunder : (cp '_').val = 0x5F := rfl
  unfold b64Val? at h h'
  simp only [Fin.ext_iff, hdash, hunder] at h h'
  split_ifs at h <;> split_ifs at h' <;> simp only [Option.some.injEq] at h h' <;> omega

/-- The text is read back from its digits. -/
theorem map_b64Char_of_mapM {s : Str} {digits : List Nat} (h : s.mapM b64Val? = some digits) :
    digits.map b64Char = s ∧ ∀ n ∈ digits, n < 64 := by
  induction s generalizing digits with
  | nil =>
    cases h
    simp
  | cons c s ih =>
    simp only [List.mapM_cons, Option.bind_eq_bind, Option.bind_eq_some_iff, Option.pure_def, Option.some.injEq] at h
    obtain ⟨n, hn, rest, hrest, rfl⟩ := h
    obtain ⟨hmap, hlt⟩ := ih hrest
    obtain ⟨hn64, hchar⟩ := b64Char_of_b64Val? hn
    exact ⟨by rw [List.map_cons, hchar, hmap], List.forall_mem_cons.mpr ⟨hn64, hlt⟩⟩

/-- The digits have bits at their end that no octet takes, and these are not all zero. -/
def LeavesBits (digits : List Nat) : Prop :=
  (digits.length % 4 = 2 ∧ digits.getLast?.getD 0 % 16 ≠ 0) ∨ (digits.length % 4 = 3 ∧ digits.getLast?.getD 0 % 4 ≠ 0)

/-- The text is base64url with bits left over. -/
def SpareBits (s : Str) : Prop := ∃ digits, s.mapM b64Val? = some digits ∧ LeavesBits digits

theorem toNat_ofNat_of_lt {n : Nat} (h : n < 256) : (UInt8.ofNat n).toNat = n := by
  rw [UInt8.toNat_ofNat']
  omega

/-- **The digits of the octets are the digits they were read from**, when no bits are left over. -/
theorem b64Digits_eq_iff {digits : List Nat} (hlt : ∀ n ∈ digits, n < 64) {raw : Bytes}
    (h : b64Octets? digits = some raw) : b64Digits raw = digits ↔ ¬ LeavesBits digits := by
  induction digits using b64Octets?.induct generalizing raw with
  | case1 =>
    cases h
    simp [b64Digits, LeavesBits]
  | case2 => cases h
  | case3 a b =>
    have ha := hlt a (by simp)
    have hb := hlt b (by simp)
    cases h
    simp only [b64Digits, toNat_ofNat_of_lt (show a * 4 + b / 16 < 256 by omega), LeavesBits, List.cons.injEq, and_true]
    simp
    omega
  | case4 a b c =>
    have ha := hlt a (by simp)
    have hb := hlt b (by simp)
    have hc := hlt c (by simp)
    cases h
    simp only [b64Digits, toNat_ofNat_of_lt (show a * 4 + b / 16 < 256 by omega),
      toNat_ofNat_of_lt (show b % 16 * 16 + c / 4 < 256 by omega), LeavesBits, List.cons.injEq, and_true]
    simp
    omega
  | case5 a b c d rest ih =>
    have ha := hlt a (by simp)
    have hb := hlt b (by simp)
    have hc := hlt c (by simp)
    have hd := hlt d (by simp)
    obtain ⟨bs, hbs, rfl⟩ := Option.map_eq_some_iff.mp h
    have hrest := ih (fun n hn => hlt n (by simp [hn])) hbs
    have hlength : (a :: b :: c :: d :: rest).length % 4 = rest.length % 4 := by
      simp only [List.length_cons]
      omega
    have hleaves : LeavesBits (a :: b :: c :: d :: rest) ↔ LeavesBits rest := by
      cases rest with
      | nil => simp [LeavesBits]
      | cons x xs => simp only [LeavesBits, hlength, List.getLast?_cons_cons]
    rw [hleaves, ← hrest]
    simp only [b64Digits, toNat_ofNat_of_lt (show a * 4 + b / 16 < 256 by omega),
      toNat_ofNat_of_lt (show b % 16 * 16 + c / 4 < 256 by omega),
      toNat_ofNat_of_lt (show c % 4 * 64 + d < 256 by omega), List.cons.injEq]
    constructor
    · intro h
      exact h.2.2.2.2
    · intro h
      exact ⟨by omega, by omega, by omega, by omega, h⟩

section
variable [Interp]

theorem b64urlDecode_ok_iff {field s : Str} {raw : Bytes} :
    b64urlDecode field (.str s) = .ok raw ↔ s ≠ [] ∧ ∃ digits, s.mapM b64Val? = some digits ∧ b64Octets? digits = some raw := by
  by_cases hs : s = []
  · simp [b64urlDecode, Json.str?, hs]
  · simp only [b64urlDecode, Json.str?, Option.bind_some, hs, if_false, ne_eq, not_false_eq_true, true_and]
    cases s.mapM b64Val? with
    | none => simp
    | some digits =>
      simp only [Option.some.injEq, exists_eq_left']
      cases b64Octets? digits <;> simp [raise]

omit [Interp] in
/-- Digits are octets, unless there is one more than a multiple of four. -/
theorem exists_octets {digits : List Nat} (h : digits.length % 4 ≠ 1) : ∃ raw, b64Octets? digits = some raw := by
  induction digits using b64Octets?.induct with
  | case1 => exact ⟨_, rfl⟩
  | case2 a => exact absurd rfl h
  | case3 a b => exact ⟨_, rfl⟩
  | case4 a b c => exact ⟨_, rfl⟩
  | case5 a b c d rest ih =>
    simp only [List.length_cons] at h
    obtain ⟨bs, hbs⟩ := ih (by omega)
    exact ⟨_, by rw [b64Octets?, hbs]; rfl⟩

/-- An accepted text is the encoding of its octets, exactly when no bits are left over. -/
theorem b64urlEncode_b64urlDecode_iff {field s : Str} :
    (∀ raw, b64urlDecode field (.str s) = .ok raw → b64urlEncode raw = s) ↔ ¬ SpareBits s := by
  constructor
  · intro h hspare
    obtain ⟨digits, hdigits, hleaves⟩ := hspare
    obtain ⟨hmap, hlt⟩ := map_b64Char_of_mapM hdigits
    have hne : s ≠ [] := by
      intro he
      rw [he] at hdigits
      cases hdigits
      simp [LeavesBits] at hleaves
    have hlength : digits.length % 4 ≠ 1 := by
      unfold LeavesBits at hleaves
      omega
    obtain ⟨raw, hraw⟩ := exists_octets hlength
    have hencode := h raw (b64urlDecode_ok_iff.mpr ⟨hne, digits, hdigits, hraw⟩)
    have hread : s.mapM b64Val? = some (b64Digits raw) := hencode ▸ mapM_b64Val?_map (b64Digits_lt raw)
    exact (b64Digits_eq_iff hlt hraw).mp (Option.some.inj (hread.symm.trans hdigits)) hleaves
  · intro hspare raw hraw
    obtain ⟨_, digits, hdigits, hoctets⟩ := b64urlDecode_ok_iff.mp hraw
    obtain ⟨hmap, hlt⟩ := map_b64Char_of_mapM hdigits
    have hsame := (b64Digits_eq_iff hlt hoctets).mpr fun hleaves => hspare ⟨digits, hdigits, hleaves⟩
    rw [b64urlEncode, hsame, hmap]

/-- **The base64url codec.** Octets come back, what is refused is refused with a `TransportError`, and an accepted text is
the encoding of its octets exactly when it has no bits left over. -/
theorem b64url_codec (field : Str) :
    (∀ value : Bytes, value ≠ [] → b64urlDecode field (.str (b64urlEncode value)) = .ok value) ∧
    (∀ value : Json, Spec (b64urlDecode field value) (fun _ => True) (Exc.isClass .transportError)) ∧
    ∀ s : Str, (∀ raw, b64urlDecode field (.str s) = .ok raw → b64urlEncode raw = s) ↔ ¬ SpareBits s :=
  ⟨fun _ h => b64urlDecode_b64urlEncode field h, b64urlDecode_spec field, fun _ => b64urlEncode_b64urlDecode_iff⟩

omit [Interp] in
theorem b64url_codec_zero :
    let _ := Interp.ascii
    b64urlDecode (lit "sealed_payload") (.str (b64urlEncode [0])) = .ok [0] := by
  intro _
  exact (b64url_codec (lit "sealed_payload")).1 [0] (by simp)

omit [Interp] in
/-- `AB` is accepted, and is not how its octet is written. -/
theorem b64urlDecode_spare :
    let _ := Interp.ascii
    b64urlDecode (lit "sealed_payload") (.str (lit "AB")) = .ok [0] ∧ b64urlEncode [0] ≠ lit "AB" := by
  intro _
  exact ⟨b64urlDecode_ok_iff.mpr ⟨by decide, [0, 1], by decide +kernel, rfl⟩, by decide⟩

end

/-! ## Credentials -/

/-- The same object, but for the order of its scope. -/
def SameButScope (d e : Dict Json) : Prop :=
  (∃ l m : List Str, l.Perm m ∧ Dict.get? d (lit "scope") = some (strArr l) ∧ Dict.get? e (lit "scope") = some (strArr m)) ∧
    ∀ k, k ≠ lit "scope" → Dict.get? d k = Dict.get? e k

theorem strArr_inj {l m : List Str} : strArr l = strArr m ↔ l = m := by
  rw [strArr, strArr, Json.arr.injEq]
  exact (List.map_injective_iff.mpr fun _ _ h => Json.str.inj h).eq_iff

theorem SameButScope.symm {d e : Dict Json} (h : SameButScope d e) : SameButScope e d := by
  obtain ⟨⟨l, m, hperm, hl, hm⟩, hrest⟩ := h
  exact ⟨⟨m, l, hperm.symm, hm, hl⟩, fun k hk => (hrest k hk).symm⟩

theorem SameButScope.trans {d e f : Dict Json} (h : SameButScope d e) (h' : SameButScope e f) : SameButScope d f := by
  obtain ⟨⟨l, m, hperm, hl, hm⟩, hrest⟩ := h
  obtain ⟨⟨l', m', hperm', hl', hm'⟩, hrest'⟩ := h'
  obtain rfl : m = l' := strArr_inj.mp (Option.some.inj (hm.symm.trans hl'))
  exact ⟨⟨l, m', hperm.trans hperm', hl, hm'⟩, fun k hk => (hrest k hk).trans (hrest' k hk)⟩

namespace DelegationCredential

theorem textField_spec (p : Str → Bool) (m : String) (j : Json) :
    Spec (textField p m j) (fun s => j = .str s ∧ p s = true) (Exc.isClass .invalidCredential) := by
  unfold textField
  split
  · split
    · exact ⟨rfl, by assumption⟩
    · exact rfl
  · exact rfl

theorem nonEmptyStrs?_eq_some {xs : List Json} {l : List Str} (h : nonEmptyStrs? xs = some l) :
    .arr xs = strArr l ∧ ∀ s ∈ l, s ≠ [] := by
  unfold nonEmptyStrs? at h
  induction xs generalizing l with
  | nil =>
    cases h
    simp [strArr]
  | cons x xs ih =>
    simp only [List.mapM_cons, Option.bind_eq_bind, Option.bind_eq_some_iff, Option.pure_def, Option.some.injEq] at h
    obtain ⟨s, hs, rest, hrest, rfl⟩ := h
    obtain ⟨hmap, hne⟩ := ih hrest
    split at hs
    · split at hs
      · cases hs
      · rename_i hnil
        cases hs
        rw [strArr, Json.arr.injEq] at hmap
        exact ⟨by rw [strArr, List.map_cons, hmap], List.forall_mem_cons.mpr ⟨hnil, hne⟩⟩
    · cases hs

/-- A scope that is accepted, and how it was written. -/
theorem scopeField_spec (j : Json) :
    Spec (scopeField j) (fun scope => (scope ≠ ∅ ∧ ∀ s ∈ scope, s ≠ []) ∧ ∃ l, j = strArr l ∧ l.Perm (sortedStrs scope))
      (Exc.isClass .invalidCredential) := by
  unfold scopeField
  split
  · split
    · rename_i l hl
      obtain ⟨harr, hne⟩ := nonEmptyStrs?_eq_some hl
      split
      · rename_i hok
        refine ⟨⟨fun he => hok.1 (List.toFinset_eq_empty_iff l |>.mp he), by simpa using hne⟩, l, harr, ?_⟩
        exact (List.toFinset_toList hok.2).symm.trans (Finset.sort_perm_toList _ _).symm
      · exact rfl
    · exact rfl
  · exact rfl

theorem depthField_spec (j : Json) :
    Spec (depthField j) (fun i => j = .int i ∧ 0 ≤ i) (Exc.isClass .invalidCredential) := by
  unfold depthField
  split
  · split
    · exact ⟨rfl, by assumption⟩
    · exact rfl
  · exact rfl

theorem parentField_spec (j : Json) :
    Spec (parentField j) (fun o => j = optStr o ∧ o ≠ some []) (Exc.isClass .invalidCredential) := by
  unfold parentField
  split
  · exact ⟨rfl, by simp⟩
  · split
    · exact rfl
    · rename_i hne
      exact ⟨rfl, by simpa using hne⟩
  · exact rfl

theorem boundField_spec (d : Dict Json) (name : String) :
    Spec (boundField d name) (fun o => Dict.get? d (lit name) = o.map fun n : Nat => .int n)
      (Exc.isClass .invalidCredential) := by
  unfold boundField
  split
  · rename_i h
    exact h
  · rename_i n h
    exact h
  · exact rfl

/-- Of a dictionary without unknown fields, any other is absent. -/
theorem get?_of_no_unknown {d : Dict Json} (h : ((Dict.keys d).toFinset \ requiredFields) \ optionalFields = ∅) {k : Str}
    (hr : k ∉ requiredFields) (ho : k ∉ optionalFields) : Dict.get? d k = none := by
  rw [Dict.get?_eq_none_iff]
  intro hk
  have hmem : k ∈ ((Dict.keys d).toFinset \ requiredFields) \ optionalFields := by simp [hk, hr, ho]
  rw [h] at hmem
  cases hmem

section
variable [Interp]

/-- **What `from_dict` accepts is the wire form of what it returns**, but for the order of the scope. -/
theorem fromDict_spec (j : Json) :
    Spec (fromDict j) (fun c => c.WireValid ∧ ∃ d, j = .obj d ∧ SameButScope d (credentialToDict c))
      (Exc.isClass .invalidCredential) := by
  cases j with
  | obj d =>
    unfold fromDict
    dsimp only
    split
    · exact rfl
    rename_i hfields
    simp only [ne_eq, not_or, not_not] at hfields
    obtain ⟨hunknown, hmissing⟩ := hfields
    -- a required field is what the subscript gives
    have hget : ∀ k, lit k ∈ requiredFields → Dict.get? d (lit k) = some ((Dict.get? d (lit k)).getD .null) := by
      intro k hk
      have hsub : requiredFields ⊆ (Dict.keys d).toFinset := Finset.sdiff_eq_empty_iff_subset.mp hmissing
      exact Dict.get?_of_mem_keys (List.mem_toFinset.mp (hsub hk)) .null
    refine (textField_spec _ _ _).bind fun credentialId hid => (textField_spec _ _ _).bind fun issuer hissuer =>
      (textField_spec _ _ _).bind fun subject hsubject => (scopeField_spec _).bind fun scope hscope =>
      (depthField_spec _).bind fun depth hdepth => (parentField_spec _).bind fun parentId hparent =>
      (textField_spec _ _ _).bind fun signature hsignature => (boundField_spec _ _).bind fun notBefore hnb =>
      (boundField_spec _ _).bind fun notAfter hna => ?_
    split
    · obtain ⟨hscopeok, l, hl, hperm⟩ := hscope
      refine ⟨⟨by simpa using hid.2, hissuer.2, hsubject.2, hscopeok, hdepth.2, hparent.2, hsignature.2⟩, d, rfl,
        ⟨l, sortedStrs scope, hperm, ?_, ?_⟩, fun k hk => ?_⟩
      · rw [hget "scope" (by decide), hl]
      · simp [credentialToDict_eq, Dict.get?_cons]
      · by_cases hr : k ∈ requiredFields
        · simp only [requiredFields, Finset.mem_insert, Finset.mem_singleton] at hr
          rcases hr with rfl | rfl | rfl | rfl | rfl | rfl | rfl
          · rw [hget _ (by decide), hid.1]
            simp [credentialToDict_eq, Dict.get?_cons]
          · rw [hget _ (by decide), hissuer.1]
            simp [credentialToDict_eq, Dict.get?_cons]
          · rw [hget _ (by decide), hsubject.1]
            simp [credentialToDict_eq, Dict.get?_cons]
          · exact absurd rfl hk
          · rw [hget _ (by decide), hdepth.1]
            simp [credentialToDict_eq, Dict.get?_cons]
          · rw [hget _ (by decide), hparent.1]
            simp [credentialToDict_eq, Dict.get?_cons]
          · rw [hget _ (by decide), hsignature.1]
            simp [credentialToDict_eq, Dict.get?_append, Dict.get?_cons, get?_optField]
        · by_cases ho : k ∈ optionalFields
          · simp only [optionalFields, Finset.mem_insert, Finset.mem_singleton] at ho
            rcases ho with rfl | rfl
            · rw [hnb]
              simp [credentialToDict_eq, Dict.get?_append, Dict.get?_cons, get?_optField]
            · rw [hna]
              simp [credentialToDict_eq, Dict.get?_append, Dict.get?_cons, get?_optField]
          · rw [get?_of_no_unknown hunknown hr ho, get?_of_no_unknown (credentialToDict_keys _).1 hr ho]
    · exact rfl
  | _ => exact rfl

end

end DelegationCredential

section
variable [Interp]

/-- **The wire form of a credential is strict and unambiguous.** `from_dict` raises `InvalidCredential` only, or returns a
credential whose wire form is the given object but for the order of the scope, so two objects give one credential only
when they differ in that order; the wire form of a credential it has returned gives it back, to the signed bytes; and its
window, whose bounds are naturals, is not inverted. -/
theorem credential_wireForm :
    (∀ j : Json, Spec (DelegationCredential.fromDict j) (fun c => ∃ d, j = .obj d ∧ SameButScope d (credentialToDict c))
      (Exc.isClass .invalidCredential)) ∧
    (∀ (j j' : Json) c, DelegationCredential.fromDict j = .ok c → DelegationCredential.fromDict j' = .ok c →
      ∃ d d', j = .obj d ∧ j' = .obj d' ∧ SameButScope d d') ∧
    (∀ (j : Json) c, DelegationCredential.fromDict j = .ok c →
      DelegationCredential.fromDict (.obj (credentialToDict c)) = .ok c) ∧
    ∀ (j : Json) c, DelegationCredential.fromDict j = .ok c → ∀ nb ∈ c.notBefore, ∀ na ∈ c.notAfter, nb ≤ na := by
  refine ⟨fun j => (DelegationCredential.fromDict_spec j).mono (fun _ h => h.2) fun _ h => h, ?_, ?_, ?_⟩
  · intro j j' c h h'
    obtain ⟨_, d, hd, hsame⟩ := (DelegationCredential.fromDict_spec j).of_ok h
    obtain ⟨_, d', hd', hsame'⟩ := (DelegationCredential.fromDict_spec j').of_ok h'
    exact ⟨d, d', hd, hd', hsame.trans hsame'.symm⟩
  · intro j c h
    exact fromDict_credentialToDict ((DelegationCredential.fromDict_spec j).of_ok h).1
  · intro j c _ nb hnb na hna
    have hwindow := c.window
    rw [Option.mem_def.mp hnb, Option.mem_def.mp hna] at hwindow
    exact hwindow

end

/-- A grant whose scope is not in order. -/
def unorderedGrant : Dict Json :=
  [(lit "signature", .str wireGrant.signature), (lit "credential_id", .str (lit "c0")), (lit "issuer", .str wireGrant.issuer),
    (lit "subject", .str wireGrant.subject), (lit "scope", strArr [lit "write", lit "read"]), (lit "depth", .int 0),
    (lit "parent_id", .null), (lit "not_before", .int 0), (lit "not_after", .int 1000)]

theorem credential_wireForm_unorderedGrant :
    let _ := Interp.ascii
    ∃ c, DelegationCredential.fromDict (.obj unorderedGrant) = .ok c ∧
      SameButScope unorderedGrant (credentialToDict c) ∧ DelegationCredential.fromDict (.obj (credentialToDict c)) = .ok c ∧
      ∀ nb ∈ c.notBefore, ∀ na ∈ c.notAfter, nb ≤ na := by
  intro _
  have hrun : (DelegationCredential.fromDict (.obj unorderedGrant)).isOk = true := by decide +kernel
  obtain ⟨c, hc⟩ := exists_of_isOk hrun
  obtain ⟨_, hsame, hback, hwindow⟩ := credential_wireForm
  have hc' := hback _ _ hc
  obtain ⟨d, d', hd, hd', hscope⟩ := hsame _ _ _ hc hc'
  cases hd
  cases hd'
  exact ⟨c, hc, hscope, hc', hwindow _ _ hc⟩

/-! ## Channel offers -/

section
variable [Interp]

/-- **Channel offers come back, and nothing else is accepted as one.** An offer in one of the two roles whose evidence is
absent or not empty is parsed back from its wire form, whatever challenge is beside it; a challenge is returned exactly
when one was supplied; and from any JSON value the parser returns an offer with a known role or raises a
`TransportError`. -/
theorem channelOffer_wireForm :
    (∀ (offer : ChannelOffer) (challenge : Option Str), offer.WireValid →
      parseChannelOffer (.obj (serializeChannelOffer offer challenge)) = .ok offer) ∧
    (∀ (offer : ChannelOffer) (challenge : Option Str) (c : Str),
      parseChallenge (serializeChannelOffer offer challenge) = .ok (some c) ↔ challenge = some c ∧ c ≠ []) ∧
    (∀ offer : ChannelOffer, parseChallenge (serializeChannelOffer offer none) = .ok none) ∧
    ∀ data : Json, Spec (parseChannelOffer data) (fun offer => offer.report.role ∈ roles) (Exc.isClass .transportError) := by
  refine ⟨fun offer challenge h => parseChannelOffer_serialize h challenge, ?_,
    fun offer => parseChallenge_serialize (by simp), parseChannelOffer_spec⟩
  intro offer challenge c
  have hget : Dict.get? (serializeChannelOffer offer challenge) (lit "challenge") = challenge.map .str := by
    simp [serializeChannelOffer, Dict.get?_cons, get?_optField]
  cases challenge with
  | none => simp [parseChallenge, hget]
  | some challenge =>
    cases challenge with
    | nil => simp [parseChallenge, hget]
    | cons a challenge =>
      simp only [parseChallenge, hget, Option.map_some, Except.ok.injEq, Option.some.injEq]
      exact ⟨fun h => ⟨h, h ▸ List.cons_ne_nil _ _⟩, fun h => h.1⟩

end

theorem channelOffer_wireForm_quote :
    let _ := Interp.ascii
    let offer : ChannelOffer :=
      { channelPublicKey := lit "key"
        report :=
          { platform := lit "tpm", measurement := lit "pcr", publicKey := lit "key", nonce := [], rawEvidence := some [0, 255],
            role := roleCaller } }
    parseChannelOffer (.obj (serializeChannelOffer offer (some (lit "v1")))) = .ok offer := by
  intro _ offer
  exact channelOffer_wireForm.1 offer _ ⟨by decide, by simp [offer], by simp [offer], by simp [offer], by simp [offer]⟩

end Ca2a
