/-
`ca2a_runtime.delegation.credential`: one signed hop of a delegation chain.

A credential's validity window is never inverted (`__post_init__` refuses to
build one that is), so it is a field of the structure. `body` omits an
absent bound; `fromDict` is the strict wire parser.
-/
import Ca2a.Crypto

namespace Ca2a

open Py

/-- A validity window is not inverted. -/
def WindowOk : Option Nat → Option Nat → Prop
  | some notBefore, some notAfter => notBefore ≤ notAfter
  | _, _ => True

instance : ∀ nb na, Decidable (WindowOk nb na)
  | some nb, some na => inferInstanceAs (Decidable (nb ≤ na))
  | some _, none => isTrue trivial
  | none, _ => isTrue trivial

/-- `DelegationCredential` -/
structure DelegationCredential where
  credentialId : Str
  issuer : Str
  subject : Str
  scope : Finset Str
  depth : Int
  parentId : Option Str := none
  signature : Str := []
  notBefore : Option Nat := none
  notAfter : Option Nat := none
  window : WindowOk notBefore notAfter := by trivial
  deriving DecidableEq

/-- `sorted(s)`, of a set of strings: by code points. -/
def sortedStrs (s : Finset Str) : List Str := s.sort (· ≤ ·)

/-- A string, or null. -/
def optStr : Option Str → Json
  | none => .null
  | some s => .str s

/-- A field that is left out when it is absent. -/
def optField (k : Str) (o : Option Json) : Dict Json :=
  match o with
  | none => []
  | some j => [(k, j)]

/-- An array of strings. -/
def strArr (l : List Str) : Json := .arr (l.map .str)

@[simp] theorem canonical_optStr {o : Option Str} : Canonical (optStr o) ↔ ∀ s ∈ o, Clean s := by
  cases o <;> simp [optStr]

@[simp] theorem canonical_strArr {l : List Str} : Canonical (strArr l) ↔ ∀ s ∈ l, Clean s := by
  simp [strArr]

@[simp] theorem mem_sortedStrs {s : Finset Str} {x : Str} : x ∈ sortedStrs s ↔ x ∈ s := Finset.mem_sort _

theorem mem_optField {k : Str} {o : Option Json} {kv : Str × Json} : kv ∈ optField k o ↔ ∃ j, o = some j ∧ kv = (k, j) := by
  cases o <;> simp [optField]

/-- `[0-9a-f]{n}`, matched in full. -/
def isLowerHex (n : Nat) (s : Str) : Bool :=
  s.length = n && s.all fun c => (0x30 ≤ c.val && c.val ≤ 0x39) || (0x61 ≤ c.val && c.val ≤ 0x66)

theorem isLowerHex_hex {b : Bytes} {n : Nat} (h : 2 * b.length = n) : isLowerHex n (hex b) = true := by
  have hdigit : ∀ m < 16, ((0x30 ≤ (hexDigit m).val && (hexDigit m).val ≤ 0x39) ||
      (0x61 ≤ (hexDigit m).val && (hexDigit m).val ≤ 0x66)) = true := by decide
  have hall : (hex b).all (fun c => (0x30 ≤ c.val && c.val ≤ 0x39) || (0x61 ≤ c.val && c.val ≤ 0x66)) = true := by
    induction b generalizing n with
    | nil => rfl
    | cons x b ih =>
      have hx := x.toNat_lt
      rw [hex_cons, List.all_cons, List.all_cons, ih rfl, hdigit _ (by omega), hdigit _ (by omega)]
      rfl
  rw [isLowerHex, hall, hex_length, h]
  simp

theorem clean_of_isLowerHex {n : Nat} {s : Str} (h : isLowerHex n s = true) : Clean s := by
  simp only [isLowerHex, Bool.and_eq_true, List.all_eq_true, Bool.or_eq_true, decide_eq_true_eq] at h
  refine clean_of_ascii fun c hc => ?_
  have := h.2 c hc
  omega

theorem not_mem_hex {c : CodePoint} (h : isLowerHex 1 [c] = false) (b : Bytes) : c ∉ hex b := by
  intro hc
  have hlow := isLowerHex_hex (b := b) rfl
  rw [isLowerHex, Bool.and_eq_true, List.all_eq_true] at hlow
  have := hlow.2 c hc
  simp [isLowerHex, this] at h

namespace DelegationCredential

/-- `DelegationCredential.body` -/
def body (c : DelegationCredential) : Json :=
  .obj ([(lit "credential_id", .str c.credentialId), (lit "issuer", .str c.issuer), (lit "subject", .str c.subject),
    (lit "scope", strArr (sortedStrs c.scope)), (lit "depth", .int c.depth), (lit "parent_id", optStr c.parentId)] ++
    optField (lit "not_before") (c.notBefore.map fun n : Nat => .int n) ++
    optField (lit "not_after") (c.notAfter.map fun n : Nat => .int n))

/-- A credential can be signed when its texts can be encoded and its numbers are safe. -/
theorem canonical_body_iff {c : DelegationCredential} :
    Canonical c.body ↔ Clean c.credentialId ∧ Clean c.issuer ∧ Clean c.subject ∧ (∀ s ∈ c.scope, Clean s) ∧
      c.depth.natAbs ≤ maxSafeInteger ∧ (∀ p ∈ c.parentId, Clean p) ∧ (∀ n ∈ c.notBefore, n ≤ maxSafeInteger) ∧
      ∀ n ∈ c.notAfter, n ≤ maxSafeInteger := by
  cases hb : c.notBefore <;> cases ha : c.notAfter <;> simp [body, hb, ha, optField, clean_lit]

section
variable [Interp] [Crypto]

/-- `DelegationCredential.sign` -/
def sign (c : DelegationCredential) (privateKey : Crypto.EdKey) : Result DelegationCredential := do
  let expected := hex (Crypto.edPublic privateKey)
  if expected ≠ c.issuer then
    raise .invalidCredential (lit "signing key does not match credential issuer")
      (some (lit "issuer=" ++ c.issuer ++ lit " key=" ++ expected))
  else
    let msg ← canonicalize c.body
    .ok { c with signature := hex (Crypto.edSign privateKey msg) }

/-- `DelegationCredential.verify_signature` -/
def verifySignature (c : DelegationCredential) : Result Unit :=
  if c.signature = [] then raise .invalidCredential (lit "credential is unsigned")
  else
    catchBuiltin signatureErrors (edCheck c.issuer c.signature c.body) fun t =>
      raise .invalidCredential (lit "credential signature failed to verify") (some t)

/-- The credential is signed by its issuer over its canonical body. -/
def Signed (c : DelegationCredential) : Prop := c.signature ≠ [] ∧ SignedBy c.issuer c.signature c.body

/-- What is signed can be encoded. -/
theorem Signed.canonical {c : DelegationCredential} (h : c.Signed) : Canonical c.body := SignedBy.canonical h.2

/-- So the texts of a signed credential can be encoded. -/
theorem Signed.clean {c : DelegationCredential} (h : c.Signed) : Clean c.credentialId ∧ Clean c.subject := by
  obtain ⟨hid, _, hsubject, _⟩ := canonical_body_iff.mp h.canonical
  exact ⟨hid, hsubject⟩

theorem verifySignature_ok_iff {c : DelegationCredential} : c.verifySignature = .ok () ↔ c.Signed := by
  unfold verifySignature Signed
  split
  · simp_all
  · rename_i hs
    rw [catchBuiltin_ok_iff (by simp), edCheck_ok_iff]
    simp [hs]

/-- A credential signed with its issuer's key is signed. -/
theorem sign_ok {c c' : DelegationCredential} {key : Crypto.EdKey} (hc : Crypto.SignatureCorrect)
    (h : c.sign key = .ok c') : c' = { c with signature := c'.signature } ∧ c'.Signed := by
  rw [sign] at h
  split at h
  · cases h
  · rename_i hk
    rw [bind_ok_iff] at h
    obtain ⟨msg, hmsg, h⟩ := h
    simp only [Except.ok.injEq] at h
    subst h
    obtain ⟨hkey, hv, hne⟩ := hc key msg
    simp only [ne_eq, not_not] at hk
    refine ⟨rfl, ?_, Crypto.edPublic key, Crypto.edSign key msg, msg, ?_, hkey, fromHex?_hex _, hmsg, hv⟩
    · exact fun he => hne (hex_injective he)
    · rw [← hk]; exact fromHex?_hex _

theorem exists_sign {c : DelegationCredential} {key : Crypto.EdKey} (hk : hex (Crypto.edPublic key) = c.issuer)
    (hb : Canonical c.body) : ∃ c', c.sign key = .ok c' := by
  obtain ⟨msg, hmsg⟩ := (exists_canonicalize_iff (ε := CA2AError)).mpr hb
  exact ⟨_, by rw [sign, if_neg (by simp [hk]), hmsg]; rfl⟩

end

/-! ## The wire form -/

/-- `_REQUIRED_CREDENTIAL_FIELDS` -/
def requiredFields : Finset Str :=
  {lit "credential_id", lit "issuer", lit "subject", lit "scope", lit "depth", lit "parent_id", lit "signature"}

/-- `_OPTIONAL_CREDENTIAL_FIELDS` -/
def optionalFields : Finset Str := {lit "not_before", lit "not_after"}

/-- A string of which `p` holds, or the field's own error. -/
def textField (p : Str → Bool) (message : String) : Json → Result Str
  | .str s => if p s then .ok s else raise .invalidCredential (lit message)
  | _ => raise .invalidCredential (lit message)

/-- The strings of a list of non-empty strings. -/
def nonEmptyStrs? (xs : List Json) : Option (List Str) :=
  xs.mapM fun
    | .str s => if s = [] then none else some s
    | _ => none

def scopeField : Json → Result (Finset Str)
  | .arr xs =>
    match nonEmptyStrs? xs with
    | some l => if l ≠ [] ∧ l.Nodup then .ok l.toFinset else malformed
    | none => malformed
  | _ => malformed
where
  malformed : Result (Finset Str) :=
    raise .invalidCredential (lit "scope must be a non-empty array of unique non-empty strings")

def depthField : Json → Result Int
  | .int i => if 0 ≤ i then .ok i else malformed
  | _ => malformed
where
  malformed : Result Int := raise .invalidCredential (lit "depth must be a non-negative integer")

def parentField : Json → Result (Option Str)
  | .null => .ok none
  | .str s => if s = [] then malformed else .ok (some s)
  | _ => malformed
where
  malformed : Result (Option Str) := raise .invalidCredential (lit "parent_id must be a non-empty string or null")

/-- A validity bound: absent, or a non-negative integer. An explicit null is refused. -/
def boundField (d : Dict Json) (name : String) : Result (Option Nat) :=
  match d.get? (lit name) with
  | none => .ok none
  | some (.int (.ofNat n)) => .ok (some n)
  | some _ => raise .invalidCredential (lit name ++ lit " must be a non-negative integer when present")

variable [Interp]

/-- `DelegationCredential.from_dict` -/
def fromDict : Json → Result DelegationCredential
  | .obj d =>
    let unknown := ((Dict.keys d).toFinset \ requiredFields) \ optionalFields
    let missing := requiredFields \ (Dict.keys d).toFinset
    if unknown ≠ ∅ ∨ missing ≠ ∅ then
      raise .invalidCredential (lit "malformed credential fields")
        (some (lit "missing=" ++ reprList (sortedStrs missing) ++ lit " unknown=" ++ reprList (sortedStrs unknown)))
    else do
      -- every required field is present here, so no subscript fails
      let field := fun (k : String) => (Dict.get? d (lit k)).getD .null
      let credentialId ← textField (· ≠ []) "credential_id must be a non-empty string" (field "credential_id")
      let issuer ← textField (isLowerHex 64) "issuer must be a lowercase 32-byte Ed25519 key in hex" (field "issuer")
      let subject ← textField (isLowerHex 64) "subject must be a lowercase 32-byte Ed25519 key in hex" (field "subject")
      let scope ← scopeField (field "scope")
      let depth ← depthField (field "depth")
      let parentId ← parentField (field "parent_id")
      let signature ← textField (isLowerHex 128) "signature must be a lowercase 64-byte Ed25519 signature in hex"
        (field "signature")
      let notBefore ← boundField d "not_before"
      let notAfter ← boundField d "not_after"
      if window : WindowOk notBefore notAfter then
        .ok { credentialId, issuer, subject, scope, depth, parentId, signature, notBefore, notAfter, window }
      else
        -- an integer that was read from JSON is short enough to be printed
        raise .invalidCredential (lit "validity window is inverted")
          (some (lit "not_before=" ++ decimal (notBefore.getD 0) ++ lit " > not_after=" ++ decimal (notAfter.getD 0)))
  | data => raise .invalidCredential (lit "credential must be a JSON object") (some (lit "got " ++ data.typeName))

end DelegationCredential

/-- A root grant of one capability, not signed yet. -/
def readGrant : DelegationCredential where
  credentialId := lit "c0"
  issuer := hex (List.replicate 32 1)
  subject := hex (List.replicate 32 2)
  scope := {lit "read"}
  depth := 0

theorem readGrant_canonical : Canonical readGrant.body := by
  rw [DelegationCredential.canonical_body_iff]
  simp [readGrant, clean_lit, clean_hex]

/-- The signed grant, with `Crypto.wire`. -/
def wireGrant : DelegationCredential :=
  { readGrant with signature := hex (List.replicate 32 1 ++ List.replicate 32 0) }

/-- A key of `Crypto.wire` signs in one way. -/
theorem signed_wire {c : DelegationCredential} {key : UInt8} (hissuer : c.issuer = hex (List.replicate 32 key))
    (hsignature : c.signature = hex (List.replicate 32 key ++ List.replicate 32 0))
    (hbody : Canonical c.body) : @DelegationCredential.Signed Interp.ascii Crypto.wire c := by
  let _ := Interp.ascii
  let _ := Crypto.wire
  obtain ⟨msg, hmsg⟩ := (exists_canonicalize_iff (ε := CA2AError)).mpr hbody
  refine ⟨fun hnil => ?_, List.replicate 32 key, List.replicate 32 key ++ List.replicate 32 0, msg,
    hissuer ▸ fromHex?_hex _, rfl, hsignature ▸ fromHex?_hex _, hmsg, ?_⟩
  · rw [hsignature] at hnil
    have hlength := congrArg List.length hnil
    rw [hex_length] at hlength
    simp at hlength
  · exact decide_eq_true ⟨List.length_replicate, rfl⟩

theorem wireGrant_signed : @DelegationCredential.Signed Interp.ascii Crypto.wire wireGrant :=
  signed_wire rfl rfl (by
    rw [DelegationCredential.canonical_body_iff]
    simp [wireGrant, readGrant, clean_lit, clean_hex])

/-- Its subject passes the capability on, for some time. -/
def wireDelegation : DelegationCredential where
  credentialId := lit "c1"
  issuer := readGrant.subject
  subject := hex (List.replicate 32 3)
  scope := {lit "read"}
  depth := 1
  parentId := some readGrant.credentialId
  signature := hex (List.replicate 32 2 ++ List.replicate 32 0)
  notBefore := some 50
  notAfter := some 1000
  window := by decide

theorem wireDelegation_signed : @DelegationCredential.Signed Interp.ascii Crypto.wire wireDelegation :=
  signed_wire rfl rfl (by
    rw [DelegationCredential.canonical_body_iff]
    simp [wireDelegation, readGrant, clean_lit, clean_hex, maxSafeInteger])

end Ca2a
