/-
A sealed payload opens for the key it was sealed to, as it was sealed, and in
no other way.

What opens is told by the AEAD alone: it answers a key, a nonce and data only
with what it produced under them. The key is derived from the ephemeral key
in the blob, the recipient's public key and their secret, three parts of 32
octets each, so another ephemeral key or another recipient is another key.
-/
import Ca2a.Channel

namespace Ca2a

open Py

/-- One encryption by the AEAD. -/
structure AeadRecord where
  key : Bytes
  nonce : Bytes
  payload : Bytes
  aad : Bytes
  deriving DecidableEq

/-- The ciphertext with its tag. -/
def AeadRecord.ct [Crypto] (q : AeadRecord) : Bytes := Crypto.aeadEncrypt q.key q.nonce q.payload q.aad

namespace Crypto

/-- An ideal AEAD opens what it produced, under the key, the nonce and the data it produced it
with, and nothing else. -/
structure IdealAead [Crypto] (produced : Set AeadRecord) : Prop where
  correct : ∀ q ∈ produced, aeadDecrypt q.key q.nonce q.ct q.aad = .ok q.payload
  rejects : ∀ key nonce ct aad payload, aeadDecrypt key nonce ct aad = .ok payload →
    { key, nonce, payload, aad : AeadRecord } ∈ produced ∧ ct = aeadEncrypt key nonce payload aad

/-- X25519: both ends of an agreement get one secret, and keys and secrets are of 32 octets. -/
structure Agreement [Crypto] : Prop where
  symmetric : ∀ a b, ∃ shared, exchange a (xPublic b) = .ok shared ∧ exchange b (xPublic a) = .ok shared
  xPublic : ∀ key, (xPublic key).length = 32
  secret : ∀ key pub shared, exchange key pub = .ok shared → pub.length = 32 ∧ shared.length = 32

end Crypto

/-- A sealed blob: the version, the ephemeral key, the nonce and the ciphertext. -/
def sealedBlob (ephPub nonce ct : Bytes) : Bytes := [1] ++ ephPub ++ nonce ++ ct

theorem sealedBlob_eq_iff {ephPub nonce ct : Bytes} (heph : ephPub.length = 32) (hnonce : nonce.length = 12)
    {blob : Bytes} :
    blob = sealedBlob ephPub nonce ct ↔ 45 ≤ blob.length ∧ blob.head? = some 1 ∧ (blob.drop 1).take 32 = ephPub ∧
      (blob.drop 33).take 12 = nonce ∧ blob.drop 45 = ct := by
  constructor
  · intro h
    subst h
    simp [sealedBlob, heph, hnonce, List.drop_append]
    omega
  · intro h
    obtain ⟨hlength, hhead, rfl, rfl, rfl⟩ := h
    cases blob with
    | nil => simp at hhead
    | cons version rest =>
      cases hhead
      have hrest : rest = rest.take 32 ++ ((rest.drop 32).take 12 ++ (rest.drop 32).drop 12) := by
        rw [List.take_append_drop, List.take_append_drop]
      simpa [sealedBlob] using hrest

section
variable [Crypto]

/-- What `openSealed` returns, it read off a blob of this layout. -/
theorem openSealed_ok_iff {blob aad payload : Bytes} {key : Crypto.XKey} :
    openSealed blob key aad = .ok payload ↔
      ∃ ephPub nonce ct shared, ephPub.length = 32 ∧ nonce.length = 12 ∧ blob = sealedBlob ephPub nonce ct ∧
        Crypto.exchange key ephPub = .ok shared ∧
        Crypto.aeadDecrypt (deriveKey shared ephPub (Crypto.xPublic key)) nonce ct aad = .ok payload := by
  unfold openSealed
  split
  · rename_i hmalformed
    simp only [raise_ne_ok, false_iff, not_exists]
    intro ephPub nonce ct shared h
    obtain ⟨heph, hnonce, hblob, _⟩ := h
    obtain ⟨hlength, hhead, _⟩ := (sealedBlob_eq_iff heph hnonce).mp hblob
    rcases hmalformed with hshort | hversion
    · omega
    · exact hversion hhead
  · rename_i hformed
    obtain ⟨hlength, hhead⟩ := not_or.mp hformed
    simp only [not_lt, ne_eq, not_not] at hlength hhead
    rw [catchBuiltin_ok_iff (fun _ _ => raise_ne_ok), bind_ok_iff]
    simp only [exchangeKey_ok_iff]
    constructor
    · intro h
      obtain ⟨shared, hshared, hopen⟩ := h
      have heph : ((blob.drop 1).take 32).length = 32 := by simp; omega
      have hnonce : ((blob.drop 33).take 12).length = 12 := by simp; omega
      refine ⟨_, _, _, shared, heph, hnonce, (sealedBlob_eq_iff heph hnonce).mpr ⟨hlength, hhead, rfl, rfl, rfl⟩,
        hshared, ?_⟩
      split at hopen
      · rename_i hplain
        cases hopen
        exact hplain
      · cases hopen
    · intro h
      obtain ⟨ephPub, nonce, ct, shared, heph, hnonce, hblob, hshared, hopen⟩ := h
      obtain ⟨_, _, rfl, rfl, rfl⟩ := (sealedBlob_eq_iff heph hnonce).mp hblob
      exact ⟨shared, hshared, by simp only [hopen]⟩

/-- **Opening fails closed.** -/
theorem openSealed_spec (blob aad : Bytes) (key : Crypto.XKey) :
    Spec (openSealed blob key aad) (fun _ => True) (Exc.isClass .sealedChannelError) := by
  unfold openSealed
  split
  · exact rfl
  · refine catchBuiltin_spec ?_ fun _ => rfl
    refine (exchangeKey_spec (fun _ => .inr ⟨_, _, rfl, rfl⟩) _ _).bind fun shared _ => ?_
    dsimp only
    split
    · exact trivial
    · exact .inr ⟨_, _, rfl, rfl⟩

variable [Interp]

theorem sealTo_ok_iff {peerPublicKey : Str} {ephemeral : Crypto.XKey} {nonce payload aad blob : Bytes} :
    sealTo peerPublicKey ephemeral nonce payload aad = .ok blob ↔
      ∃ peerPub shared, fromHex? peerPublicKey = some peerPub ∧ Crypto.exchange ephemeral peerPub = .ok shared ∧
        blob = sealedBlob (Crypto.xPublic ephemeral) nonce
          (Crypto.aeadEncrypt (deriveKey shared (Crypto.xPublic ephemeral) peerPub) nonce payload aad) := by
  unfold sealTo
  rw [catchBuiltin_ok_iff (fun _ _ => raise_ne_ok)]
  simp only [bind_ok_iff, fromHex_ok_iff, exchangeKey_ok_iff, Except.ok.injEq, sealedBlob]
  constructor
  · intro h
    obtain ⟨peerPub, hpeer, shared, hshared, hblob⟩ := h
    exact ⟨peerPub, shared, hpeer, hshared, hblob.symm⟩
  · intro h
    obtain ⟨peerPub, shared, hpeer, hshared, hblob⟩ := h
    exact ⟨peerPub, hpeer, shared, hshared, hblob.symm⟩

/-! ## The derived key -/

omit [Interp] in
/-- A derived key names the ephemeral key, the recipient and their secret. -/
theorem deriveKey_inj (hhkdf : Function.Injective (Crypto.hkdf none (asciiBytes "ca2a/sealed-channel/v1")))
    {shared shared' ephPub ephPub' peerPub peerPub' : Bytes} (heph : ephPub.length = ephPub'.length)
    (hpeer : peerPub.length = peerPub'.length) (h : deriveKey shared ephPub peerPub = deriveKey shared' ephPub' peerPub') :
    ephPub = ephPub' ∧ peerPub = peerPub' ∧ shared = shared' := by
  have hikm := hhkdf h
  rw [List.append_assoc, List.append_assoc] at hikm
  obtain ⟨rfl, hrest⟩ := List.append_inj hikm heph
  obtain ⟨rfl, rfl⟩ := List.append_inj hrest hpeer
  exact ⟨rfl, rfl, rfl⟩

/-! ## Round trip and tampering -/

/-- The encryption a blob stands for, opened with a key under the data. -/
def AeadRecord.Frames (q : AeadRecord) (blob aad : Bytes) (key : Crypto.XKey) : Prop :=
  ∃ ephPub shared, ephPub.length = 32 ∧ q.nonce.length = 12 ∧ blob = sealedBlob ephPub q.nonce q.ct ∧
    Crypto.exchange key ephPub = .ok shared ∧ q.key = deriveKey shared ephPub (Crypto.xPublic key) ∧ q.aad = aad

omit [Interp] in
/-- **What opens was produced**: a blob opens to what the AEAD encrypted in it. -/
theorem openSealed_ok_iff_produced {produced : Set AeadRecord} (haead : Crypto.IdealAead produced)
    {blob aad payload : Bytes} {key : Crypto.XKey} :
    openSealed blob key aad = .ok payload ↔ ∃ q ∈ produced, q.payload = payload ∧ q.Frames blob aad key := by
  rw [openSealed_ok_iff]
  constructor
  · intro h
    obtain ⟨ephPub, nonce, ct, shared, heph, hnonce, hblob, hshared, hopen⟩ := h
    obtain ⟨hmem, hct⟩ := haead.rejects _ _ _ _ _ hopen
    refine ⟨_, hmem, rfl, ephPub, shared, heph, hnonce, ?_, hshared, rfl, rfl⟩
    rw [hblob, hct]
    rfl
  · intro h
    obtain ⟨q, hmem, hpayload, ephPub, shared, heph, hnonce, hblob, hshared, hkey, haad⟩ := h
    refine ⟨ephPub, q.nonce, q.ct, shared, heph, hnonce, hblob, hshared, ?_⟩
    rw [← hkey, ← haad, ← hpayload]
    exact haead.correct q hmem

omit [Interp] in
/-- An encryption is read from one blob, with one recipient's key and under one aad. -/
theorem AeadRecord.Frames.unique (hagree : Crypto.Agreement)
    (hhkdf : Function.Injective (Crypto.hkdf none (asciiBytes "ca2a/sealed-channel/v1"))) {q : AeadRecord}
    {ephPub peerPub shared : Bytes} (heph : ephPub.length = 32) (hpeer : peerPub.length = 32)
    (hkey : q.key = deriveKey shared ephPub peerPub) {blob aad : Bytes} {key : Crypto.XKey} (h : q.Frames blob aad key) :
    blob = sealedBlob ephPub q.nonce q.ct ∧ Crypto.xPublic key = peerPub ∧ q.aad = aad := by
  obtain ⟨ephPub', shared', heph', _, hblob, _, hkey', haad⟩ := h
  obtain ⟨rfl, hpub, _⟩ := deriveKey_inj hhkdf (heph'.trans heph.symm) ((hagree.xPublic key).trans hpeer.symm)
    (hkey'.symm.trans hkey)
  exact ⟨hblob, hpub, haad⟩

/-- The encryption `SealedChannel.seal` makes. -/
def sealing (shared : Bytes) (ephemeral : Crypto.XKey) (peerPub nonce payload aad : Bytes) : AeadRecord :=
  { key := deriveKey shared (Crypto.xPublic ephemeral) peerPub, nonce, payload, aad }

omit [Interp] in
/-- What the AEAD opens for the recipient is what was sealed. -/
theorem openSealed_of_sealing {produced : Set AeadRecord} (haead : Crypto.IdealAead produced)
    (hagree : Crypto.Agreement) {key ephemeral : Crypto.XKey} {shared nonce payload aad : Bytes} (hnonce : nonce.length = 12)
    (hshared : Crypto.exchange key (Crypto.xPublic ephemeral) = .ok shared)
    (hmem : sealing shared ephemeral (Crypto.xPublic key) nonce payload aad ∈ produced) :
    openSealed (sealedBlob (Crypto.xPublic ephemeral) nonce
      (sealing shared ephemeral (Crypto.xPublic key) nonce payload aad).ct) key aad = .ok payload :=
  (openSealed_ok_iff_produced haead).mpr
    ⟨_, hmem, rfl, Crypto.xPublic ephemeral, shared, hagree.xPublic ephemeral, hnonce, rfl, hshared, rfl, rfl⟩

omit [Interp] in
/-- Opening fails where it returns nothing. -/
theorem openSealed_fails {blob aad : Bytes} {key : Crypto.XKey} (h : ∀ payload, openSealed blob key aad ≠ .ok payload) :
    ∃ e, openSealed blob key aad = .error e ∧ e.isClass .sealedChannelError := by
  cases hopen : openSealed blob key aad with
  | ok payload => exact absurd hopen (h payload)
  | error e => exact ⟨e, rfl, (openSealed_spec blob aad key).of_error hopen⟩

/-- The blob, the recipient or the data is not the sealed one. -/
def Changed (blob peerPub aad blob' : Bytes) (key' : Crypto.XKey) (aad' : Bytes) : Prop :=
  blob' ≠ blob ∨ Crypto.xPublic key' ≠ peerPub ∨ aad' ≠ aad

omit [Interp] in
/-- **The encryption in a sealed blob is not read from a changed one.** -/
theorem not_frames_of_changed (hagree : Crypto.Agreement)
    (hhkdf : Function.Injective (Crypto.hkdf none (asciiBytes "ca2a/sealed-channel/v1"))) {shared peerPub : Bytes}
    {ephemeral : Crypto.XKey} (hshared : Crypto.exchange ephemeral peerPub = .ok shared) {nonce payload aad blob' aad' : Bytes}
    {key' : Crypto.XKey}
    (hchanged : Changed (sealedBlob (Crypto.xPublic ephemeral) nonce
      (sealing shared ephemeral peerPub nonce payload aad).ct) peerPub aad blob' key' aad') :
    ¬ (sealing shared ephemeral peerPub nonce payload aad).Frames blob' aad' key' := by
  intro hframes
  obtain ⟨hblob, hrecipient, haad⟩ := hframes.unique hagree hhkdf (hagree.xPublic ephemeral)
    (hagree.secret _ _ _ hshared).1 rfl
  rcases hchanged with h | h | h
  · exact h hblob
  · exact h hrecipient
  · exact h haad.symm

/-- **The sealed channel.** Opening returns or raises `SealedChannelError`; what is sealed to a key,
its holder opens, whatever the payload and the data; what opens has version 1 and a ciphertext the
AEAD produced from it under the key derived for this ephemeral key and this recipient; and what was
changed does not open, unless the AEAD itself produced what it was changed to, which takes another
nonce and another ephemeral key or recipient where those of a sealing are drawn for it alone. -/
theorem sealedChannel_failsClosed :
    (∀ blob aad (key : Crypto.XKey),
      Spec (openSealed blob key aad) (fun _ => True) (Exc.isClass .sealedChannelError)) ∧
    (Crypto.Agreement → Function.Injective (Crypto.hkdf none (asciiBytes "ca2a/sealed-channel/v1")) →
      ∀ produced : Set AeadRecord, Crypto.IdealAead produced →
        (∀ (key ephemeral : Crypto.XKey) (nonce payload aad : Bytes), nonce.length = 12 →
          (∀ shared, Crypto.exchange ephemeral (Crypto.xPublic key) = .ok shared →
            sealing shared ephemeral (Crypto.xPublic key) nonce payload aad ∈ produced) →
          ∃ blob, sealTo (hex (Crypto.xPublic key)) ephemeral nonce payload aad = .ok blob ∧
            openSealed blob key aad = .ok payload) ∧
        (∀ blob aad payload (key : Crypto.XKey), openSealed blob key aad = .ok payload →
          ∃ ephPub nonce ct shared, ephPub.length = 32 ∧ nonce.length = 12 ∧ blob = [1] ++ ephPub ++ nonce ++ ct ∧
            Crypto.exchange key ephPub = .ok shared ∧
            { key := deriveKey shared ephPub (Crypto.xPublic key), nonce, payload, aad : AeadRecord } ∈ produced ∧
            ct = Crypto.aeadEncrypt (deriveKey shared ephPub (Crypto.xPublic key)) nonce payload aad ∧
            ∀ ephPub' peerPub' shared', ephPub'.length = 32 → peerPub'.length = 32 →
              deriveKey shared' ephPub' peerPub' = deriveKey shared ephPub (Crypto.xPublic key) →
                ephPub' = ephPub ∧ peerPub' = Crypto.xPublic key ∧ shared' = shared) ∧
        (∀ peerPublicKey peerPub shared (ephemeral : Crypto.XKey) (nonce payload aad blob : Bytes), nonce.length = 12 →
          fromHex? peerPublicKey = some peerPub → Crypto.exchange ephemeral peerPub = .ok shared →
          sealTo peerPublicKey ephemeral nonce payload aad = .ok blob →
          ∀ blob' (key' : Crypto.XKey) aad', Changed blob peerPub aad blob' key' aad' →
            ((∀ q ∈ produced, q ≠ sealing shared ephemeral peerPub nonce payload aad → ¬ q.Frames blob' aad' key') →
              ∃ e, openSealed blob' key' aad' = .error e ∧ e.isClass .sealedChannelError) ∧
            ((∀ q ∈ produced, q ≠ sealing shared ephemeral peerPub nonce payload aad →
                q.key ≠ (sealing shared ephemeral peerPub nonce payload aad).key ∧ q.nonce ≠ nonce) →
              ((blob'.drop 1).take 32 = Crypto.xPublic ephemeral ∧ Crypto.xPublic key' = peerPub ∨
                (blob'.drop 33).take 12 = nonce) →
              ∃ e, openSealed blob' key' aad' = .error e ∧ e.isClass .sealedChannelError))) := by
  refine ⟨fun blob aad key => openSealed_spec blob aad key, ?_⟩
  intro hagree hhkdf produced haead
  refine ⟨?_, ?_, ?_⟩
  · intro key ephemeral nonce payload aad hnonce hproduced
    obtain ⟨shared, hout, hin⟩ := hagree.symmetric ephemeral key
    exact ⟨_, sealTo_ok_iff.mpr ⟨_, shared, fromHex?_hex _, hout, rfl⟩,
      openSealed_of_sealing haead hagree hnonce hin (hproduced shared hout)⟩
  · intro blob aad payload key hopen
    obtain ⟨q, hmem, rfl, ephPub, shared, heph, hnonce, hblob, hshared, hkey, rfl⟩ :=
      (openSealed_ok_iff_produced haead).mp hopen
    refine ⟨ephPub, q.nonce, q.ct, shared, heph, hnonce, hblob, hshared, hkey ▸ hmem, hkey ▸ rfl, ?_⟩
    intro ephPub' peerPub' shared' heph' hpeer' hsame
    exact deriveKey_inj hhkdf (heph'.trans heph.symm) (hpeer'.trans (hagree.xPublic key).symm) hsame
  · intro peerPublicKey peerPub shared ephemeral nonce payload aad blob hnonce hpeer hshared hseal blob' key' aad' hchanged
    obtain ⟨_, _, hpeer', hshared', rfl⟩ := sealTo_ok_iff.mp hseal
    cases hpeer.symm.trans hpeer'
    cases hshared.symm.trans hshared'
    have hown : ¬ (sealing shared ephemeral peerPub nonce payload aad).Frames blob' aad' key' :=
      not_frames_of_changed hagree hhkdf hshared hchanged
    have hother : (∀ q ∈ produced, q ≠ sealing shared ephemeral peerPub nonce payload aad → ¬ q.Frames blob' aad' key') →
        ∃ e, openSealed blob' key' aad' = .error e ∧ e.isClass .sealedChannelError := by
      intro hnone
      refine openSealed_fails ?_
      intro payload' hopen
      obtain ⟨q, hmem, _, hframes⟩ := (openSealed_ok_iff_produced haead).mp hopen
      by_cases hq : q = sealing shared ephemeral peerPub nonce payload aad
      · exact hown (hq ▸ hframes)
      · exact hnone q hmem hq hframes
    refine ⟨hother, ?_⟩
    intro hfresh hpart
    refine hother ?_
    intro q hmem hq hframes
    obtain ⟨hkey, hnonce'⟩ := hfresh q hmem hq
    obtain ⟨ephPub', shared'', heph', hqnonce, hblob', hexchange, hqkey, _⟩ := hframes
    obtain ⟨_, _, hephPart, hnoncePart, _⟩ := (sealedBlob_eq_iff heph' hqnonce).mp hblob'
    rcases hpart with hsame | hsame
    · -- The same two public keys have the same secret, so this would be the sealing's own key.
      obtain ⟨heph, hrecipient⟩ := hsame
      obtain ⟨s, hout, hin⟩ := hagree.symmetric ephemeral key'
      rw [hrecipient] at hout
      rw [← hephPart, heph] at hexchange hqkey
      cases hshared.symm.trans hout
      cases hexchange.symm.trans hin
      exact hkey (hqkey.trans (by rw [hrecipient]; rfl))
    · exact hnonce' (hnoncePart.symm.trans hsame)

end

/-! ## A channel that sealed once -/

/-- The one encryption of the example: the octet 7, sealed with the key 1 to the key 2. -/
@[reducible] def Crypto.onceSealed : AeadRecord :=
  { key := List.replicate 32 1 ++ List.replicate 32 2 ++ List.replicate 32 3, nonce := List.replicate 12 5, payload := [7],
    aad := [9] }

/-- The primitives of `toy`, with an AEAD that produced one ciphertext. -/
@[reducible] def Crypto.once : Crypto :=
  { toy with
    aeadEncrypt := fun _ _ payload _ => payload
    aeadDecrypt := fun key nonce ct aad =>
      if key = onceSealed.key ∧ nonce = onceSealed.nonce ∧ ct = onceSealed.payload ∧ aad = onceSealed.aad then .ok ct
      else .error (lit "InvalidTag") }

theorem Crypto.once_idealAead : @Crypto.IdealAead Crypto.once {onceSealed} := by
  refine @Crypto.IdealAead.mk Crypto.once _ ?_ ?_
  · intro q hq
    cases hq
    exact if_pos ⟨rfl, rfl, rfl, rfl⟩
  · intro key nonce ct aad payload h
    change (if key = onceSealed.key ∧ nonce = onceSealed.nonce ∧ ct = onceSealed.payload ∧ aad = onceSealed.aad then _
      else _) = _ at h
    split at h
    · rename_i heq
      obtain ⟨rfl, rfl, rfl, rfl⟩ := heq
      cases h
      exact ⟨rfl, rfl⟩
    · cases h

theorem Crypto.once_agreement : @Crypto.Agreement Crypto.once := by
  refine @Crypto.Agreement.mk Crypto.once ?_ ?_ ?_
  · intro (a : UInt8) (b : UInt8)
    have hexchange : ∀ x y : UInt8, @Crypto.exchange Crypto.once x (List.replicate 32 y) = .ok (List.replicate 32 (y + x)) := by
      intro x y
      exact if_pos List.length_replicate
    exact ⟨List.replicate 32 (b + a), hexchange a b, UInt8.add_comm b a ▸ hexchange b a⟩
  · intro key
    exact List.length_replicate
  · intro key pub shared h
    change (if pub.length = 32 then _ else _) = _ at h
    split at h
    · rename_i hpub
      cases h
      exact ⟨hpub, by rw [List.length_map, hpub]⟩
    · cases h

/-- The blob of that encryption. -/
def onceBlob : Bytes := [1] ++ List.replicate 32 1 ++ List.replicate 12 5 ++ [7]

theorem sealTo_once :
    @sealTo Crypto.once Interp.ascii (hex (List.replicate 32 2)) (1 : UInt8) (List.replicate 12 5) [7] [9] = .ok onceBlob :=
  (@sealTo_ok_iff Crypto.once Interp.ascii _ _ _ _ _ _).mpr ⟨_, _, fromHex?_hex _, rfl, rfl⟩

/-- The payload opens, what opens is the one encryption, and whatever is changed does not open: the octets, the
recipient or the data. -/
theorem sealedChannel_failsClosed_once :
    (∃ blob, @sealTo Crypto.once Interp.ascii (hex (List.replicate 32 2)) (1 : UInt8) (List.replicate 12 5) [7] [9] = .ok blob ∧
      @openSealed Crypto.once blob (2 : UInt8) [9] = .ok [7]) ∧
    (∀ (key : UInt8) blob payload, @openSealed Crypto.once blob key [9] = .ok payload → payload = [7]) ∧
    (∀ (key : UInt8) blob aad, @Changed Crypto.once onceBlob (List.replicate 32 2) [9] blob key aad →
      ∃ e, @openSealed Crypto.once blob key aad = .error e ∧ e.isClass .sealedChannelError) ∧
    ∃ e, @openSealed Crypto.once onceBlob (2 : UInt8) [10] = .error e ∧ e.isClass .sealedChannelError := by
  obtain ⟨_, hideal⟩ := @sealedChannel_failsClosed Crypto.once Interp.ascii
  obtain ⟨hround, horigin, htamper⟩ := hideal Crypto.once_agreement (by intro a b h; exact h) {Crypto.onceSealed}
    Crypto.once_idealAead
  have htamper := htamper (hex (List.replicate 32 2)) (List.replicate 32 2) (List.replicate 32 3) (1 : UInt8)
    (List.replicate 12 5) [7] [9] _ rfl (fromHex?_hex _) rfl sealTo_once
  refine ⟨hround (2 : UInt8) (1 : UInt8) (List.replicate 12 5) [7] [9] rfl ?_, fun key blob payload hopen => ?_,
    fun key blob aad hchanged => ?_, ?_⟩
  · intro shared h
    cases h
    rfl
  · obtain ⟨_, _, _, _, _, _, _, _, hmem, _⟩ := horigin blob [9] payload key hopen
    exact congrArg AeadRecord.payload hmem
  · refine (htamper blob key aad hchanged).1 fun q hmem hq => ?_
    exact absurd hmem hq
  · -- The nonce is still the sealing's.
    refine (htamper onceBlob (2 : UInt8) [10] (.inr (.inr (by decide)))).2 (fun q hmem hq => absurd hmem hq) (.inr ?_)
    decide

end Ca2a
