/-
`ca2a_runtime.tee.binding`: the octets an attestation commits to.

The binding is the digest of a domain, the offered key and the nonce, each
field after its length. The domain names the platform and the role of the
offer, and no domain begins another, so one digest is a binding in one way
only: `roleBinding_inj`.
-/
import Ca2a.Attestation
import Ca2a.Wire

namespace Ca2a

open Py

/-- `TPM_PREFIX` -/
def tpmPrefix : Bytes := asciiBytes "ca2a-tpm-v1|"

/-- `SNP_PREFIX` -/
def snpPrefix : Bytes := asciiBytes "ca2a-snp-v1|"

/-- `TDX_PREFIX` -/
def tdxPrefix : Bytes := asciiBytes "ca2a-tdx-v1|"

/-- `TPM_CALLER_PREFIX` -/
def tpmCallerPrefix : Bytes := asciiBytes "ca2a-tpm-caller-v2|"

/-- `SNP_CALLER_PREFIX` -/
def snpCallerPrefix : Bytes := asciiBytes "ca2a-snp-caller-v2|"

/-- `TDX_CALLER_PREFIX` -/
def tdxCallerPrefix : Bytes := asciiBytes "ca2a-tdx-caller-v2|"

/-- `_PREFIXES` -/
def rolePrefixes : List ((Bytes × Str) × Bytes) :=
  [((tpmPrefix, roleCallee), tpmPrefix), ((tpmPrefix, roleCaller), tpmCallerPrefix),
    ((snpPrefix, roleCallee), snpPrefix), ((snpPrefix, roleCaller), snpCallerPrefix),
    ((tdxPrefix, roleCallee), tdxPrefix), ((tdxPrefix, roleCaller), tdxCallerPrefix)]

section
variable [Interp]

/-- `role_prefix` -/
def rolePrefix (platformPrefix : Bytes) (role : Str) : Result Bytes :=
  match rolePrefixes.lookup (platformPrefix, role) with
  | some domain => .ok domain
  | none =>
    raise .attestationFailed (lit "attestation report names an unknown offer role")
      (some (lit "role=" ++ Py.repr role ++ lit ", expected one of " ++ reprList (sortedStrs roles)))

/-- `n.to_bytes(4, "big")` -/
def toBytes4 (n : Nat) : Result Bytes :=
  if n < 2 ^ 32 then
    .ok [UInt8.ofNat (n / 2 ^ 24), UInt8.ofNat (n / 2 ^ 16), UInt8.ofNat (n / 2 ^ 8), UInt8.ofNat n]
  else .error (.builtin .overflowError (lit "int too big to convert"))

/-- A field after its length. -/
def lengthPrefixed (field : Bytes) : Result Bytes := do
  let length ← toBytes4 field.length
  .ok (length ++ field)

/-- `derive_binding` -/
def deriveBinding [Crypto] (domain : Bytes) (publicKey nonce : Str) : Result Bytes := do
  let key ← utf8 publicKey
  let nonce ← utf8 nonce
  let keyPart ← lengthPrefixed key
  let noncePart ← lengthPrefixed nonce
  .ok (Crypto.sha256 (domain ++ (keyPart ++ noncePart)))

/-! ## One digest, one binding -/

omit [Interp] in
theorem toBytes4_inj {m n : Nat} {b : Bytes} (hm : toBytes4 m = .ok b) (hn : toBytes4 n = .ok b) : m = n := by
  have hoctet : ∀ {x y : Nat}, UInt8.ofNat x = UInt8.ofNat y → x % 256 = y % 256 := by
    intro x y h
    simpa using congrArg UInt8.toNat h
  unfold toBytes4 at hm hn
  split at hm
  · split at hn
    · cases hm
      simp only [Except.ok.injEq, List.cons.injEq] at hn
      obtain ⟨h3, h2, h1, h0, _⟩ := hn
      have := hoctet h3
      have := hoctet h2
      have := hoctet h1
      have := hoctet h0
      omega
    · cases hn
  · cases hm

omit [Interp] in
theorem toBytes4_length {n : Nat} {b : Bytes} (h : toBytes4 n = .ok b) : b.length = 4 := by
  unfold toBytes4 at h
  split at h
  · cases h
    rfl
  · cases h

omit [Interp] in
/-- Where a field ends is read from what it begins with. -/
theorem lengthPrefixed_append_inj {field field' part part' rest rest' : Bytes} (h : lengthPrefixed field = .ok part)
    (h' : lengthPrefixed field' = .ok part') (heq : part ++ rest = part' ++ rest') : field = field' ∧ rest = rest' := by
  rw [lengthPrefixed, bind_ok_iff] at h h'
  obtain ⟨length, hlength, h⟩ := h
  obtain ⟨length', hlength', h'⟩ := h'
  cases h
  cases h'
  rw [List.append_assoc, List.append_assoc] at heq
  obtain ⟨rfl, hfields⟩ := List.append_inj heq ((toBytes4_length hlength).trans (toBytes4_length hlength').symm)
  exact List.append_inj hfields (toBytes4_inj hlength hlength')

/-- The domains that occur. -/
theorem mem_of_rolePrefix {platformPrefix domain : Bytes} {role : Str} (h : rolePrefix platformPrefix role = .ok domain) :
    ((platformPrefix, role), domain) ∈ rolePrefixes := by
  rw [rolePrefix] at h
  split at h
  · rename_i hlookup
    cases h
    obtain ⟨before, after, heq, _⟩ := List.lookup_eq_some_iff.mp hlookup
    rw [heq]
    exact List.mem_append_right _ List.mem_cons_self
  · cases h

omit [Interp] in
/-- The first twelve octets of a domain tell it from the others. -/
theorem domain_of_take : ∀ entry ∈ rolePrefixes, ∀ entry' ∈ rolePrefixes, entry.2.take 12 = entry'.2.take 12 →
    entry = entry' := by
  decide

/-- **No domain begins another.** -/
theorem rolePrefix_append_inj {platformPrefix platformPrefix' domain domain' rest rest' : Bytes} {role role' : Str}
    (h : rolePrefix platformPrefix role = .ok domain) (h' : rolePrefix platformPrefix' role' = .ok domain')
    (heq : domain ++ rest = domain' ++ rest') :
    platformPrefix = platformPrefix' ∧ role = role' ∧ domain = domain' ∧ rest = rest' := by
  have hlength : ∀ entry ∈ rolePrefixes, 12 ≤ entry.2.length := by decide
  have hmem := mem_of_rolePrefix h
  have hmem' := mem_of_rolePrefix h'
  have htake : domain.take 12 = domain'.take 12 := by
    have := congrArg (List.take 12) heq
    rwa [List.take_append_of_le_length (hlength _ hmem), List.take_append_of_le_length (hlength _ hmem')] at this
  cases domain_of_take _ hmem _ hmem' htake
  exact ⟨rfl, rfl, rfl, List.append_cancel_left heq⟩

variable [Crypto]

/-- What a platform commits to when it attests a key under a nonce in a role. -/
def roleBinding (platformPrefix : Bytes) (role publicKey nonce : Str) : Result Bytes := do
  let domain ← rolePrefix platformPrefix role
  deriveBinding domain publicKey nonce

/-- **One digest, one binding**: the role, the key and the nonce can be read from it. -/
theorem roleBinding_inj (hsha : Function.Injective Crypto.sha256) {platformPrefix platformPrefix' : Bytes}
    {role role' publicKey publicKey' nonce nonce' : Str} {digest : Bytes}
    (h : roleBinding platformPrefix role publicKey nonce = .ok digest)
    (h' : roleBinding platformPrefix' role' publicKey' nonce' = .ok digest) :
    role = role' ∧ publicKey = publicKey' ∧ nonce = nonce' := by
  simp only [roleBinding, deriveBinding, bind_ok_iff, Except.ok.injEq] at h h'
  obtain ⟨domain, hdomain, key, hkey, n, hn, keyPart, hkeyPart, noncePart, hnoncePart, hdigest⟩ := h
  obtain ⟨domain', hdomain', key', hkey', n', hn', keyPart', hkeyPart', noncePart', hnoncePart', hdigest'⟩ := h'
  have heq := hsha (hdigest.trans hdigest'.symm)
  obtain ⟨_, hrole, _, hfields⟩ := rolePrefix_append_inj hdomain hdomain' heq
  obtain ⟨rfl, rfl⟩ := lengthPrefixed_append_inj hkeyPart hkeyPart' hfields
  have hsame : noncePart ++ [] = noncePart ++ [] := rfl
  obtain ⟨rfl, _⟩ := lengthPrefixed_append_inj hnoncePart hnoncePart' hsame
  rw [utf8_ok_iff] at hkey hkey' hn hn'
  exact ⟨hrole, utf8?_injective hkey hkey', utf8?_injective hn hn'⟩

end

end Ca2a
