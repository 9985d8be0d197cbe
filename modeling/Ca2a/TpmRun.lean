/-
Calls of `TpmProvider.attest` side by side on one TPM.

A call holds what it has learnt of its key and what it has read of the
registers (`TpmHeld`). The TPM keeps apart what is whose: a transient key is one
call's, and is there until that call has flushed it (`TpmInv`). Anybody may
extend the registers at any time. What a call returns is then over its own
binding, under the key it says, and over registers that were the same when they
were read and when they were quoted, as far as the digest tells.
-/
import Ca2a.TpmCollect

namespace Ca2a

open Py

/-! ## The TPM -/

/-- The eight registers that are quoted, in the SHA-256 bank. -/
structure PcrBank where
  values : List Bytes
  count : values.length = pcrCount
  width : ∀ v ∈ values, v.length = 32

/-- `TPML` concatenation of equal widths is read back. -/
theorem eq_of_flatten {w : Nat} {l m : List Bytes} (hl : ∀ v ∈ l, v.length = w) (hm : ∀ v ∈ m, v.length = w)
    (hlength : l.length = m.length) (h : l.flatten = m.flatten) : l = m := by
  induction l generalizing m with
  | nil => exact (List.eq_nil_of_length_eq_zero hlength.symm).symm
  | cons v l ih =>
    obtain ⟨v', m', rfl⟩ := List.exists_cons_of_length_eq_add_one hlength.symm
    rw [List.flatten_cons, List.flatten_cons] at h
    have hv : v.length = v'.length := (hl v (by simp)).trans (hm v' (by simp)).symm
    obtain ⟨rfl, hrest⟩ := List.append_inj h hv
    rw [ih (fun u hu => hl u (by simp [hu])) (fun u hu => hm u (by simp [hu])) (by simpa using hlength) hrest]

theorem PcrBank.eq_of_flatten {bank bank' : PcrBank} (h : bank.values.flatten = bank'.values.flatten) : bank = bank' := by
  have hvalues := Ca2a.eq_of_flatten bank.width bank'.width (bank.count.trans bank'.count.symm) h
  cases bank
  cases bank'
  cases hvalues
  rfl

/-- `sha256` over the concatenated registers. -/
def PcrBank.digest [Crypto] (bank : PcrBank) : Bytes := Crypto.sha256 bank.values.flatten

/-- The registers, what they were when a collector read them, what was signed for a collector and what they were then, the
transient keys collectors made, and those that could not be flushed. -/
structure TpmState where
  bank : PcrBank
  seen : List PcrBank
  quoted : List (Bytes × PcrBank)
  loaded : Nat → Option KeyPem
  stuck : List Nat

/-- A TPM: its persistent keys, and the quotes a key may sign over given data and registers. -/
structure TpmDevice where
  persistent : Nat → Option KeyPem
  Signs : (publicKey : KeyPem) → (qualifyingData pcrDigest attest signature : Bytes) → Prop

namespace TpmState

/-- A collector reads the registers. -/
def read (s : TpmState) : TpmState := { s with seen := s.bank :: s.seen }

/-- The TPM signs for a collector. -/
def sign (s : TpmState) (data : Bytes) : TpmState := { s with quoted := (data, s.bank) :: s.quoted }

/-- The TPM with a transient key loaded or flushed. -/
def set (s : TpmState) (handle : Nat) (publicKey : Option KeyPem) : TpmState :=
  { s with loaded := Function.update s.loaded handle publicKey }

/-- The public key of a handle. -/
def publicOf (s : TpmState) (device : TpmDevice) (handle : Nat) : Option KeyPem :=
  match device.persistent handle with
  | some publicKey => some publicKey
  | none => s.loaded handle

/-- Anybody extends the registers, and has keys of their own. -/
def OthersChange (s s' : TpmState) : Prop :=
  s'.seen = s.seen ∧ s'.quoted = s.quoted ∧ s'.loaded = s.loaded ∧ s'.stuck = s.stuck

@[simp] theorem set_loaded_self (s : TpmState) (handle : Nat) (publicKey : Option KeyPem) :
    (s.set handle publicKey).loaded handle = publicKey := Function.update_self ..

theorem set_loaded_of_ne {s : TpmState} {handle other : Nat} {publicKey : Option KeyPem} (h : other ≠ handle) :
    (s.set handle publicKey).loaded other = s.loaded other := Function.update_of_ne h ..

end TpmState

section
variable [Crypto]

/-- How the TPM and the network answer. A quote that raised may have been signed, a key that could not be made is not
there, and one that could not be flushed still is. -/
def TpmDevice.serves (device : TpmDevice) (s : TpmState) : (c : TpmCall) → TpmReply c → TpmState → Prop
  | .connect, _, s' => s' = s
  | .pcrRead, .ok digests, s' => (∃ n, digests = s.bank.values.take n) ∧ s' = s.read
  | .pcrRead, .error _, s' => s' = s
  | .readNv _, _, s' => s' = s
  | .trFromTpmpublic _, .ok handle, s' => (∃ publicKey, device.persistent handle = some publicKey) ∧ s' = s
  | .trFromTpmpublic _, .error _, s' => s' = s
  | .readPublic handle, .ok publicKey, s' => s.publicOf device handle = some publicKey ∧ s' = s
  | .readPublic _, .error _, s' => s' = s
  | .fetch _, _, s' => s' = s
  | .createPrimary, .ok (handle, publicKey), s' =>
    device.persistent handle = none ∧ s.loaded handle = none ∧ s' = s.set handle (some publicKey)
  | .createPrimary, .error _, s' => s' = s
  | .quote handle data, .ok (attest, signature), s' => ∃ publicKey, s.publicOf device handle = some publicKey ∧
      device.Signs publicKey data s.bank.digest attest signature ∧ s' = s.sign data
  | .quote _ data, .error _, s' => s' = s ∨ s' = s.sign data
  | .flushContext handle, .ok (), s' => s' = s.set handle none
  | .flushContext handle, .error _, s' => s' = { s with stuck := handle :: s.stuck }

/-- A host with the TPM. -/
def TpmDevice.host (device : TpmDevice) : Host TpmState TpmCall TpmReply where
  serves := device.serves
  other := TpmState.OthersChange

/-! ## What a call holds -/

omit [Crypto] in
/-- The key of a call, as far as it has got. -/
inductive TpmHold
  | nothing
  | opened (handle : Nat)
  | persistent (handle : Nat) (publicKey : KeyPem)
  | transient (handle : Nat) (publicKey : KeyPem)
  | abandoned (handle : Nat)

namespace TpmHold

/-- The transient key is the call's, flushed or not. -/
def names : TpmHold → Nat → Prop
  | .transient handle _, h => handle = h
  | .abandoned handle, h => handle = h
  | _, _ => False

/-- The call has a key to sign with. -/
def signsWith : TpmHold → Nat → KeyPem → Prop
  | .persistent handle publicKey, h, k => handle = h ∧ publicKey = k
  | .transient handle publicKey, h, k => handle = h ∧ publicKey = k
  | _, _, _ => False

end TpmHold

omit [Crypto] in
/-- A call: the binding it asks a quote for, what opening the connection raised, its key, the registers it has read and those
that were quoted for it. -/
structure TpmHeld where
  data : Option Bytes
  refused : Option LibError
  key : TpmHold
  read : Option PcrBank
  quoted : Option PcrBank

/-- The calls a collector may make: on its own key, and for a quote only over its own binding. -/
def TpmDevice.discipline (device : TpmDevice) : Discipline TpmHeld TpmCall TpmReply where
  may o
    | .connect | .pcrRead | .readNv _ | .fetch _ => True
    | .trFromTpmpublic _ => o.key = .nothing
    | .readPublic handle => o.key = .opened handle
    | .createPrimary => ∀ handle, ¬ o.key.names handle
    | .quote handle data => o.data = some data ∧ ∃ publicKey, o.key.signsWith handle publicKey
    | .flushContext handle => ∃ publicKey, o.key = .transient handle publicKey
  effect o
    | .connect, .ok (), o' => o' = o
    | .connect, .error exc, o' => o' = { o with refused := some exc }
    | .pcrRead, .ok digests, o' => ∃ bank n, digests = bank.values.take n ∧ o' = { o with read := some bank }
    | .pcrRead, .error _, o' => o' = o
    | .readNv _, _, o' => o' = o
    | .trFromTpmpublic _, .ok handle, o' => o' = { o with key := .opened handle }
    | .trFromTpmpublic _, .error _, o' => o' = o
    | .readPublic handle, .ok publicKey, o' => o' = { o with key := .persistent handle publicKey }
    | .readPublic _, .error _, o' => o' = o
    | .fetch _, _, o' => o' = o
    | .createPrimary, .ok (handle, publicKey), o' => o' = { o with key := .transient handle publicKey }
    | .createPrimary, .error _, o' => o' = o
    | .quote handle data, .ok (attest, signature), o' => ∃ publicKey bank, o.key.signsWith handle publicKey ∧
        device.Signs publicKey data bank.digest attest signature ∧ o' = { o with quoted := some bank }
    | .quote _ _, .error _, o' => o' = o
    | .flushContext _, .ok (), o' => o' = { o with key := .nothing }
    | .flushContext handle, .error _, o' => o' = { o with key := .abandoned handle }

/-! ## One call -/

section
variable {device : TpmDevice} {lib : CertLib}

theorem fetchIssuer_meets (aia : List (Str × Option Str)) (o : TpmHeld) :
    (fetchIssuer lib aia).Meets device.discipline (fun _ o' => o' = o) o := by
  induction aia with
  | nil => exact rfl
  | cons access aia ih =>
    obtain ⟨method, location⟩ := access
    unfold fetchIssuer
    split
    · exact ih
    split
    · exact ih
    split
    · exact ih
    refine ⟨trivial, fun fetched o' ho' => ?_⟩
    cases ho'
    cases fetched with
    | error exc => exact ih
    | ok data =>
      dsimp only
      split
      · exact ih
      · exact rfl

theorem walkChain_meets (rounds : Nat) (chain : List lib.Cert) (o : TpmHeld) :
    (walkChain lib rounds chain).Meets device.discipline (fun _ o' => o' = o) o := by
  induction rounds generalizing chain with
  | zero => exact rfl
  | succ rounds ih =>
    rw [walkChain]
    split
    · exact rfl
    split
    · exact rfl
    · exact rfl
    split
    · exact rfl
    · exact rfl
    refine ((fetchIssuer_meets _ o).mono fun issuer o' ho' => ?_).andThen
    subst ho'
    cases issuer with
    | none => exact rfl
    | some issuer => exact ih _

theorem chainFromLeaf_meets (leafDer : Bytes) (o : TpmHeld) :
    (chainFromLeaf lib leafDer).Meets device.discipline (fun _ o' => o' = o) o := by
  unfold chainFromLeaf
  split
  · exact rfl
  · exact ((walkChain_meets _ _ o).mono fun _ _ h => h).andThen

/-- The key is the call's own: a transient one, or the persistent one with a chain that certifies it. -/
def KeyHeld (lib : CertLib) (key : AttestationKey) (hold : TpmHold) : Prop :=
  (key.transient = true ∧ key.chainPem = none ∧ hold = .transient key.handle key.publicKey) ∨
    key.transient = false ∧ hold = .persistent key.handle key.publicKey ∧
      ∃ chain, key.chainPem = some chain ∧ chain ≠ [] ∧ certifies lib chain key.publicKey = .ok true

/-- What asking for a key comes to: with a key of the call's own, or none that it would have to flush. -/
def KeyAsked (lib : CertLib) (o : TpmHeld) (result : Except LibError AttestationKey) (o' : TpmHeld) : Prop :=
  ∃ hold, o' = { o with key := hold } ∧
    match result with
    | .ok key => KeyHeld lib key hold
    | .error _ => ∀ handle, ¬ hold.names handle

theorem createAttestationKey_meets {o : TpmHeld} (h : ∀ handle, ¬ o.key.names handle) :
    createAttestationKey.Meets device.discipline (KeyAsked lib o) o := by
  refine ⟨h, fun created o' ho' => ?_⟩
  cases created with
  | error exc =>
    cases ho'
    exact ⟨o.key, rfl, h⟩
  | ok key =>
    cases ho'
    exact ⟨_, rfl, .inl ⟨rfl, rfl, rfl⟩⟩

theorem platformKey_meets (certDer : Bytes) {o : TpmHeld} (h : o.key = .nothing) :
    (platformKey lib certDer).Meets device.discipline
      (fun result o' => (∃ hold, o' = { o with key := hold } ∧ ∀ handle, ¬ hold.names handle) ∧
        ∀ key, result = some key → KeyHeld lib key o'.key) o := by
  refine ⟨h, fun opened o' ho' => ?_⟩
  cases opened with
  | error exc =>
    cases ho'
    exact ⟨⟨o.key, rfl, by simp [h, TpmHold.names]⟩, by simp⟩
  | ok handle =>
    cases ho'
    refine ⟨rfl, fun answered o' ho' => ?_⟩
    cases answered with
    | error exc =>
      cases ho'
      exact ⟨⟨_, rfl, by simp [TpmHold.names]⟩, by simp⟩
    | ok publicKey =>
      cases ho'
      refine ((chainFromLeaf_meets certDer _).mono fun chain o' ho' => ?_).andThen
      subst ho'
      have hnone : (∃ hold, ({ o with key := .persistent handle publicKey } : TpmHeld) = { o with key := hold } ∧
          ∀ handle, ¬ hold.names handle) := ⟨_, rfl, by simp [TpmHold.names]⟩
      cases chain with
      | error exc => exact ⟨hnone, by simp⟩
      | ok chain =>
        dsimp only
        split
        · exact ⟨hnone, by simp⟩
        rename_i hne
        split
        · rename_i hcertifies
          refine ⟨hnone, fun key hkey => ?_⟩
          cases hkey
          exact .inr ⟨rfl, rfl, chain, rfl, hne, hcertifies⟩
        · exact ⟨hnone, by simp⟩

theorem attestationKey_meets {o : TpmHeld} (h : o.key = .nothing) :
    (attestationKey lib).Meets device.discipline (KeyAsked lib o) o := by
  refine ⟨trivial, fun cert o' ho' => ?_⟩
  cases ho'
  cases cert with
  | none => exact createAttestationKey_meets (by simp [h, TpmHold.names])
  | some certDer =>
    refine ((platformKey_meets certDer h).mono fun result o' ho' => ?_).andThen
    obtain ⟨⟨hold, rfl, hnames⟩, hkey⟩ := ho'
    cases result with
    | none =>
      have hcreates : createAttestationKey.Meets device.discipline (KeyAsked lib { o with key := hold }) { o with key := hold } :=
        createAttestationKey_meets hnames
      refine hcreates.mono fun created o' ho' => ?_
      obtain ⟨hold', rfl, hcreated⟩ := ho'
      exact ⟨hold', rfl, hcreated⟩
    | some key => exact ⟨hold, rfl, hkey key rfl⟩

/-- What a quote comes to: the key is flushed or could not be, and a quote is over the binding under the key. -/
structure QuotedWith (device : TpmDevice) (key : AttestationKey) (data : Bytes) (o : TpmHeld)
    (result : Except TpmError (Bytes × Bytes × Bytes)) (o' : TpmHeld) : Prop where
  same : o'.data = o.data ∧ o'.read = o.read
  flushed : ∀ handle publicKey, o'.key ≠ .transient handle publicKey
  failed : ∀ e, result = .error e → ∃ x, e = .raised x ∧ x.isClass .attestationFailed
  signed : ∀ attest signature pem, result = .ok (attest, signature, pem) → key.publicKey = .ok pem ∧
    ∃ bank, o'.quoted = some bank ∧ device.Signs (.ok pem) data bank.digest attest signature

omit [Crypto] in
theorem KeyHeld.signsWith {key : AttestationKey} {hold : TpmHold} (h : KeyHeld lib key hold) :
    hold.signsWith key.handle key.publicKey ∧
      ∀ handle publicKey, hold.signsWith handle publicKey → handle = key.handle ∧ publicKey = key.publicKey := by
  rcases h with ⟨_, _, rfl⟩ | ⟨_, rfl, _⟩
  · exact ⟨⟨rfl, rfl⟩, fun _ _ h => ⟨h.1.symm, h.2.symm⟩⟩
  · exact ⟨⟨rfl, rfl⟩, fun _ _ h => ⟨h.1.symm, h.2.symm⟩⟩

theorem quoteWith_meets {key : AttestationKey} {data : Bytes} {o : TpmHeld} (hdata : o.data = some data)
    (hkey : KeyHeld lib key o.key) :
    (quoteWith key data).Meets device.discipline (QuotedWith device key data o) o := by
  -- the key is flushed after a quote and after a failure alike
  have hflush : ∀ (result : Except TpmError (Bytes × Bytes × Bytes)) (o₁ : TpmHeld), o₁.data = o.data → o₁.read = o.read →
      o₁.key = o.key → (∀ e, result = .error e → ∃ x, e = .raised x ∧ x.isClass .attestationFailed) →
      (∀ attest signature pem, result = .ok (attest, signature, pem) → key.publicKey = .ok pem ∧
        ∃ bank, o₁.quoted = some bank ∧ device.Signs (.ok pem) data bank.digest attest signature) →
      (if key.transient = true then .call (.flushContext key.handle) fun _ => .ret result else .ret result :
        TpmProgram (Except TpmError (Bytes × Bytes × Bytes))).Meets device.discipline (QuotedWith device key data o) o₁ := by
    intro result o₁ hdata₁ hread₁ hkey₁ hfailed hsigned
    rcases hkey with ⟨htransient, _, hhold⟩ | ⟨htransient, hhold, _⟩
    · rw [if_pos htransient]
      refine ⟨⟨key.publicKey, hkey₁.trans hhold⟩, fun flushed o₂ ho₂ => ?_⟩
      cases flushed with
      | error exc =>
        cases ho₂
        exact ⟨⟨hdata₁, hread₁⟩, by simp, hfailed, hsigned⟩
      | ok u =>
        cases ho₂
        exact ⟨⟨hdata₁, hread₁⟩, by simp, hfailed, hsigned⟩
    · rw [if_neg (by simp [htransient])]
      exact ⟨⟨hdata₁, hread₁⟩, by simp [hkey₁, hhold], hfailed, hsigned⟩
  refine ⟨⟨hdata, _, hkey.signsWith.1⟩, fun quoted o' ho' => ?_⟩
  cases quoted with
  | error exc =>
    cases ho'
    exact hflush _ _ rfl rfl rfl (fun e he => by cases he; exact ⟨_, rfl, rfl⟩) fun _ _ _ h => by cases h
  | ok signed =>
    obtain ⟨attest, signature⟩ := signed
    obtain ⟨publicKey, bank, hsigns, hquote, rfl⟩ := ho'
    obtain ⟨_, rfl⟩ := hkey.signsWith.2 _ _ hsigns
    dsimp only
    cases hpem : key.publicKey with
    | error exc => exact hflush _ _ rfl rfl rfl (fun e he => by cases he; exact ⟨_, rfl, rfl⟩) fun _ _ _ h => by cases h
    | ok pem =>
      refine hflush _ _ rfl rfl rfl (fun e he => by cases he) fun attest' signature' pem' h => ?_
      cases h
      rw [hpem] at hquote
      exact ⟨hpem, bank, rfl, hquote⟩

/-- What a report of `attest` stands on: the quote of a key over the binding of the call, and the registers as they were when
they were read and when they were quoted. -/
structure TpmEvidence [Interp] (device : TpmDevice) (lib : CertLib) (call : TpmAttestCall) (report : AttestationReport)
    (attest signature pem : Bytes) (quote : TpmQuote) (read quoted : PcrBank) : Prop where
  carried : report.rawEvidence = some attest ∧ report.quoteSignature = some signature ∧ report.attestationKeyPem = some pem
  named : report.platform = lit "tpm" ∧ report.publicKey = call.publicKey ∧ report.nonce = call.nonce ∧
    report.role = call.role
  parsed : (TpmQuote.parse attest).result = .ok quote
  generated : quote.magic = tpmGeneratedValue ∧ quote.attestType = tpmStAttestQuote
  binding : tpmQualifyingData call.publicKey call.nonce call.role = .ok quote.qualifyingData
  measured : quote.pcrDigest = read.digest ∧ report.measurement = lit "sha256:" ++ hex quote.pcrDigest
  signed : device.Signs (.ok pem) quote.qualifyingData quoted.digest attest signature
  certified : ∀ chain, report.attestationKeyChainPem = some chain → chain ≠ [] ∧ certifies lib chain (.ok pem) = .ok true

omit [Crypto] in
/-- What the provider says it raises. -/
def TpmError.isExpected : TpmError → Prop
  | .unsupported _ _ => True
  | .raised e => e.isClass .attestationFailed
  | .library _ => False

/-- What a call comes to. -/
structure TpmCollected [Interp] (device : TpmDevice) (lib : CertLib) (call : TpmAttestCall)
    (result : Except TpmError AttestationReport) (o : TpmHeld) : Prop where
  flushed : ∀ handle publicKey, o.key ≠ .transient handle publicKey
  failed : ∀ e, result = .error e → e.isExpected ∨ (∃ exc, e = .library exc ∧ o.refused = some exc) ∨
    ∃ x, tpmQualifyingData call.publicKey call.nonce call.role = .error x ∧ e = .raised x
  report : ∀ report, result = .ok report → ∃ attest signature pem quote read quoted, o.read = some read ∧
    o.quoted = some quoted ∧ TpmEvidence device lib call report attest signature pem quote read quoted

omit [Crypto] in
theorem checkQuote_spec (quote : TpmQuote) (data digest : Bytes) :
    Spec (checkQuote quote data digest)
      (fun _ => quote.magic = tpmGeneratedValue ∧ quote.attestType = tpmStAttestQuote ∧ quote.qualifyingData = data ∧
        quote.pcrDigest = digest) TpmError.isExpected := by
  unfold checkQuote
  split
  · exact rfl
  split
  · exact rfl
  split
  · exact rfl
  split
  · exact rfl
  · simp_all

omit [Crypto] in
theorem tpmReport_spec (call : TpmAttestCall) (data digest : Bytes) (chainPem : Option Bytes)
    (quoted : Bytes × Bytes × Bytes) :
    Spec (tpmReport call data digest chainPem quoted)
      (fun report => ∃ quote, (TpmQuote.parse quoted.1).result = .ok quote ∧ quote.magic = tpmGeneratedValue ∧
        quote.attestType = tpmStAttestQuote ∧ quote.qualifyingData = data ∧ quote.pcrDigest = digest ∧
        report = ⟨lit "tpm", lit "sha256:" ++ hex quote.pcrDigest, call.publicKey, call.nonce, some quoted.1, some quoted.2.1,
          some quoted.2.2, chainPem, call.role⟩) TpmError.isExpected := by
  rw [tpmReport]
  cases hparse : (TpmQuote.parse quoted.1).result with
  | error e => exact (TpmQuote.parse_reads quoted.1).spec.of_error hparse
  | ok quote =>
    refine (checkQuote_spec quote data digest).bind fun _ h => ?_
    obtain ⟨hmagic, htype, hdata, hdigest⟩ := h
    exact ⟨quote, rfl, hmagic, htype, hdata, hdigest, rfl⟩

theorem readPcrs_ok {bank : PcrBank} {n : Nat} {digest : Bytes} (h : readPcrs (.ok (bank.values.take n)) = .ok digest) :
    digest = bank.digest := by
  unfold readPcrs at h
  dsimp only at h
  split at h
  · cases h
  rename_i hcount
  cases h
  rw [List.length_take, bank.count] at hcount
  have hn : bank.values.length ≤ n := by
    rw [bank.count]
    omega
  rw [PcrBank.digest, List.take_of_length_le hn, List.take_of_length_le bank.count.le]

theorem readPcrs_error {answered : Except LibError (List Bytes)} {e : TpmError} (h : readPcrs answered = .error e) :
    e.isExpected := by
  unfold readPcrs at h
  split at h
  · cases h
    exact trivial
  split at h
  · cases h
    exact rfl
  · cases h

variable [Interp]

theorem collectQuote_meets {call : TpmAttestCall} {data : Bytes} {read : PcrBank} {o : TpmHeld}
    (hbinding : tpmQualifyingData call.publicKey call.nonce call.role = .ok data) (hdata : o.data = some data)
    (hkey : o.key = .nothing) (hread : o.read = some read) :
    (collectQuote lib call data read.digest).Meets device.discipline (TpmCollected device lib call) o := by
  refine ((attestationKey_meets hkey).mono fun result o₁ h₁ => ?_).andThen
  obtain ⟨hold, rfl, hasked⟩ := h₁
  cases result with
  | error exc => exact ⟨fun handle publicKey hhold => hasked handle (by simp_all [TpmHold.names]),
      fun e he => .inl (by cases he; exact rfl), by simp [tpmFailed]⟩
  | ok key =>
    have hquotes : (quoteWith key data).Meets device.discipline (QuotedWith device key data { o with key := hold })
        { o with key := hold } := quoteWith_meets hdata hasked
    refine (hquotes.mono fun quoted o₂ h₂ => ?_).andThen
    cases quoted with
    | error e₀ =>
      refine ⟨h₂.flushed, fun e he => .inl ?_, fun report h => by cases h⟩
      cases he
      obtain ⟨x, rfl, hx⟩ := h₂.failed _ rfl
      exact hx
    | ok signed =>
      obtain ⟨attest, signature, pem⟩ := signed
      obtain ⟨hpem, bank, hquoted, hsigns⟩ := h₂.signed attest signature pem rfl
      have hspec := tpmReport_spec call data read.digest key.chainPem (attest, signature, pem)
      refine ⟨h₂.flushed, fun e he => .inl (hspec.of_error he), fun report hreport => ?_⟩
      obtain ⟨quote, hparse, hmagic, htype, rfl, hdigest, rfl⟩ := hspec.of_ok hreport
      refine ⟨attest, signature, pem, quote, read, bank, h₂.same.2.trans hread, hquoted, ⟨rfl, rfl, rfl⟩, ⟨rfl, rfl, rfl, rfl⟩,
        hparse, ⟨hmagic, htype⟩, hbinding, ⟨hdigest, rfl⟩, hsigns, fun chain hchain => ?_⟩
      rcases hasked with ⟨_, hnone, _⟩ | ⟨_, _, chain', hsome, hne, hcertifies⟩
      · cases hnone.symm.trans hchain
      · cases hsome.symm.trans hchain
        exact ⟨hne, hpem ▸ hcertifies⟩

/-- What a call holds when it starts: the binding it will ask for, if there is one. -/
def tpmStart (call : TpmAttestCall) : TpmHeld where
  data := (tpmQualifyingData call.publicKey call.nonce call.role).toOption
  refused := none
  key := .nothing
  read := none
  quoted := none

theorem tpmCollect_meets (call : TpmAttestCall) :
    (tpmCollect lib call).Meets device.discipline (TpmCollected device lib call) (tpmStart call) := by
  unfold tpmCollect
  cases hbinding : tpmQualifyingData call.publicKey call.nonce call.role with
  | error x => exact ⟨by simp [tpmStart], fun e he => .inr (.inr ⟨x, hbinding, by cases he; rfl⟩), by simp⟩
  | ok data =>
    have hstart : tpmStart call = ⟨some data, none, .nothing, none, none⟩ := by simp [tpmStart, hbinding, Except.toOption]
    rw [hstart]
    refine ⟨trivial, fun connected o₁ h₁ => ?_⟩
    cases connected with
    | error exc =>
      cases h₁
      exact ⟨by simp, fun e he => .inr (.inl ⟨exc, by cases he; rfl, rfl⟩), by simp⟩
    | ok u =>
      cases h₁
      refine ⟨trivial, fun answered o₂ h₂ => ?_⟩
      cases hdigest : readPcrs answered with
      | error e₀ =>
        have hkey : o₂.key = .nothing := by
          cases answered with
          | error exc => exact h₂ ▸ rfl
          | ok digests =>
            obtain ⟨bank, n, _, rfl⟩ := h₂
            rfl
        simp only [hdigest]
        exact ⟨by simp [hkey], fun e he => .inl (by cases he; exact readPcrs_error hdigest), by simp⟩
      | ok digest =>
        simp only [hdigest]
        cases answered with
        | error exc => cases hdigest
        | ok digests =>
          obtain ⟨bank, n, rfl, rfl⟩ := h₂
          cases readPcrs_ok hdigest
          exact collectQuote_meets hbinding rfl rfl rfl

omit [Crypto] [Interp] in
theorem tpmRequireHost_iff (env : TpmEnv) :
    (tpmRequireHost env = .ok () ↔ tpmDetect env = true) ∧
      ∀ e, tpmRequireHost env = .error e → ∃ message detail, e = .unsupported message detail := by
  simp only [tpmRequireHost, tpmDetect]
  by_cases hlinux : env.platform = lit "linux"
  · cases hpresent : tpmDevices.filter env.present with
    | nil =>
      have hnone : tpmDevices.any env.present = false := by
        rw [List.any_eq_false]
        exact List.filter_eq_nil_iff.mp hpresent
      simp [hlinux, hnone]
    | cons device rest =>
      have hany : tpmDevices.any env.present = true := by
        obtain ⟨hmem, hdevice⟩ := List.mem_filter.mp (hpresent ▸ List.mem_cons_self)
        exact List.any_eq_true.mpr ⟨device, hmem, hdevice⟩
      cases env.bindings <;> simp [hlinux, hany]
  · simp [hlinux]

/-- **One call.** -/
theorem tpmAttest_meets (env : TpmEnv) (call : TpmAttestCall) :
    (tpmAttest lib env call).Meets device.discipline (TpmCollected device lib call) (tpmStart call) := by
  unfold tpmAttest
  cases hhost : tpmRequireHost env with
  | error e₀ =>
    refine ⟨by simp [tpmStart], fun e he => .inl ?_, by simp⟩
    cases he
    obtain ⟨message, detail, rfl⟩ := (tpmRequireHost_iff env).2 _ hhost
    exact trivial
  | ok u => exact tpmCollect_meets call

/-- **What a verifier makes of a report**: its own checks never refuse one that was collected, and what is left is a root to
trust, a chain, and the library. -/
theorem TpmEvidence.verified_iff {call : TpmAttestCall} {report : AttestationReport} {attest signature pem : Bytes}
    {quote : TpmQuote} {read quoted : PcrBank}
    (h : TpmEvidence device lib call report attest signature pem quote read quoted) (sdk : TpmSdk) (trustedRootsPem : Bytes)
    (measurement : Str) :
    verifyTpmReport sdk trustedRootsPem report call.nonce = .ok measurement ↔
      measurement = report.measurement ∧ trustedRootsPem ≠ [] ∧ ∃ chain parsed,
        report.attestationKeyChainPem = some chain ∧ sdk.parseTpmtSignature signature = .ok parsed ∧
        sdk.verify attest (.parsed parsed) chain trustedRootsPem (some quote.qualifyingData) none = .ok true := by
  have hbinding : tpmQualifyingData report.publicKey report.nonce report.role = .ok quote.qualifyingData := by
    rw [h.named.2.1, h.named.2.2.1, h.named.2.2.2]
    exact h.binding
  rw [verifyTpmReport_ok_iff]
  refine ⟨fun haccepts => ?_, fun haccepts => ?_⟩
  · obtain ⟨_, hroots, evidence, quote', haccepted⟩ := haccepts
    obtain ⟨quoteSignature, parsed, chain, binding, hsignature, hchain, _, hdata, hparsed, hverify⟩ := haccepted.verified
    cases h.carried.1.symm.trans haccepted.carried
    cases h.carried.2.1.symm.trans hsignature
    cases hbinding.symm.trans hdata
    exact ⟨haccepted.measured.2.symm, hroots, chain, parsed, hchain, hparsed, hverify⟩
  · obtain ⟨rfl, hroots, chain, parsed, hchain, hparsed, hverify⟩ := haccepts
    exact ⟨h.named.2.2.1, hroots, attest, quote, h.carried.1, h.parsed,
      ⟨signature, parsed, chain, _, h.carried.2.1, hchain, (h.certified chain hchain).1, hbinding, hparsed, hverify⟩,
      h.measured.2, rfl⟩

end

/-! ## Calls side by side -/

omit [Crypto] in
/-- What a call holds is so: it asks for its own binding, the keys it has are there, and what it has read and what was signed
for it were. -/
structure TpmOwn (device : TpmDevice) (data : Option Bytes) (s : TpmState) (o : TpmHeld) : Prop where
  asked : o.data = data
  opened : ∀ handle, o.key = .opened handle → ∃ publicKey, device.persistent handle = some publicKey
  persistent : ∀ handle publicKey, o.key = .persistent handle publicKey → device.persistent handle = some publicKey
  transient : ∀ handle publicKey, o.key = .transient handle publicKey → s.loaded handle = some publicKey
  abandoned : ∀ handle, o.key = .abandoned handle → handle ∈ s.stuck ∧ ∃ publicKey, s.loaded handle = some publicKey
  read : ∀ bank, o.read = some bank → bank ∈ s.seen
  quoted : ∀ bank, o.quoted = some bank → ∃ d, data = some d ∧ (d, bank) ∈ s.quoted

omit [Crypto] in
/-- What the TPM keeps between the calls. -/
structure TpmInv {ι : Type} (device : TpmDevice) (data : ι → Option Bytes) (s : TpmState) (held : ι → TpmHeld) : Prop where
  own : ∀ i, TpmOwn device (data i) s (held i)
  alone : ∀ i j handle, (held i).key.names handle → (held j).key.names handle → i = j
  accounted : ∀ handle publicKey, s.loaded handle = some publicKey → ∃ i, (held i).key.names handle
  apart : ∀ handle publicKey, s.loaded handle = some publicKey → device.persistent handle = none
  signed : ∀ entry ∈ s.quoted, ∃ i, data i = some entry.1

section
omit [Crypto]
variable {ι : Type} {device : TpmDevice} {data : ι → Option Bytes} {s : TpmState} {held : ι → TpmHeld}

/-- The key a call names is loaded. -/
theorem TpmOwn.loaded {d : Option Bytes} {o : TpmHeld} (h : TpmOwn device d s o) {handle : Nat}
    (hnames : o.key.names handle) : ∃ publicKey, s.loaded handle = some publicKey := by
  cases hkey : o.key with
  | transient handle' publicKey =>
    rw [hkey] at hnames
    cases hnames
    exact ⟨publicKey, h.transient _ _ hkey⟩
  | abandoned handle' =>
    rw [hkey] at hnames
    cases hnames
    exact (h.abandoned _ hkey).2
  | nothing | opened _ | persistent _ _ =>
    rw [hkey] at hnames
    exact hnames.elim

/-- What a call holds stays so while its key does and the rest only grows. -/
theorem TpmOwn.grow {d : Option Bytes} {o : TpmHeld} {s' : TpmState} (h : TpmOwn device d s o)
    (hloaded : ∀ handle, o.key.names handle → s'.loaded handle = s.loaded handle) (hstuck : s.stuck ⊆ s'.stuck)
    (hseen : s.seen ⊆ s'.seen) (hquoted : s.quoted ⊆ s'.quoted) : TpmOwn device d s' o where
  asked := h.asked
  opened := h.opened
  persistent := h.persistent
  transient := fun handle publicKey hkey => (hloaded handle (by rw [hkey]; rfl)).trans (h.transient _ _ hkey)
  abandoned := by
    intro handle hkey
    obtain ⟨hmem, publicKey, hpublic⟩ := h.abandoned handle hkey
    exact ⟨hstuck hmem, publicKey, (hloaded handle (by rw [hkey]; rfl)).trans hpublic⟩
  read := fun bank hbank => hseen (h.read bank hbank)
  quoted := fun bank hbank => (h.quoted bank hbank).imp fun _ hd => ⟨hd.1, hquoted hd.2⟩

namespace TpmInv

/-- The key a call signs with is the one its handle has. -/
theorem publicOf (h : TpmInv device data s held) {i : ι} {handle : Nat} {publicKey : KeyPem}
    (hsigns : (held i).key.signsWith handle publicKey) : s.publicOf device handle = some publicKey := by
  unfold TpmState.publicOf
  cases hkey : (held i).key with
  | persistent handle' publicKey' =>
    rw [hkey] at hsigns
    obtain ⟨rfl, rfl⟩ := hsigns
    rw [(h.own i).persistent _ _ hkey]
  | transient handle' publicKey' =>
    rw [hkey] at hsigns
    obtain ⟨rfl, rfl⟩ := hsigns
    have hloaded := (h.own i).transient _ _ hkey
    rw [h.apart _ _ hloaded]
    exact hloaded
  | nothing | opened _ | abandoned _ =>
    rw [hkey] at hsigns
    exact hsigns.elim

/-- **The TPM goes on**, with its keys as they are and nothing signed that was not asked for. -/
theorem grow {s' : TpmState} (h : TpmInv device data s held) (hloaded : s'.loaded = s.loaded) (hstuck : s.stuck ⊆ s'.stuck)
    (hseen : s.seen ⊆ s'.seen) (hquoted : s.quoted ⊆ s'.quoted) (hsigned : ∀ entry ∈ s'.quoted, ∃ i, data i = some entry.1) :
    TpmInv device data s' held where
  own := fun i => (h.own i).grow (fun _ _ => by rw [hloaded]) hstuck hseen hquoted
  alone := h.alone
  accounted := fun handle publicKey hkey => h.accounted handle publicKey (hloaded ▸ hkey)
  apart := fun handle publicKey hkey => h.apart handle publicKey (hloaded ▸ hkey)
  signed := hsigned

variable [DecidableEq ι]

/-- **A call learns something**, about no other transient key than before. -/
theorem learn (h : TpmInv device data s held) {i : ι} {o : TpmHeld} (hown : TpmOwn device (data i) s o)
    (hnames : ∀ handle, o.key.names handle ↔ (held i).key.names handle) :
    TpmInv device data s (Function.update held i o) := by
  have hsame : ∀ j handle, (Function.update held i o j).key.names handle ↔ (held j).key.names handle := by
    rw [Function.forall_update_iff held fun j o' => ∀ handle, o'.key.names handle ↔ (held j).key.names handle]
    exact ⟨hnames, fun _ _ _ => Iff.rfl⟩
  exact
    { own := (Function.forall_update_iff held fun j o' => TpmOwn device (data j) s o').mpr ⟨hown, fun j _ => h.own j⟩
      alone := fun j k handle hj hk => h.alone j k handle ((hsame j handle).mp hj) ((hsame k handle).mp hk)
      accounted := fun handle publicKey hkey => (h.accounted handle publicKey hkey).imp fun j => (hsame j handle).mpr
      apart := h.apart
      signed := h.signed }

/-- **A handle changes**, that no call but this one names, and this one no other. -/
theorem rekey (h : TpmInv device data s held) {i : ι} {handle : Nat} {publicKey : Option KeyPem} {hold : TpmHold}
    (hmine : ∀ j, (held j).key.names handle → j = i) (honly : ∀ other, (held i).key.names other → other = handle)
    (hown : TpmOwn device (data i) (s.set handle publicKey) { held i with key := hold })
    (hnames : ∀ other, hold.names other → other = handle)
    (hloaded : ∀ pem, publicKey = some pem → hold.names handle ∧ device.persistent handle = none) :
    TpmInv device data (s.set handle publicKey) (Function.update held i { held i with key := hold }) := by
  have hself : Function.update held i { held i with key := hold } i = { held i with key := hold } := Function.update_self ..
  have hne : ∀ {j : ι}, j ≠ i → Function.update held i { held i with key := hold } j = held j := fun hij =>
    Function.update_of_ne hij ..
  have hother : ∀ {j other}, j ≠ i → (held j).key.names other → other ≠ handle := by
    intro j other hij hj hhandle
    exact hij (hmine j (hhandle ▸ hj))
  refine ⟨?own, fun j k other hj hk => ?alone, fun other pem hother' => ?accounted, fun other pem hother' => ?apart, h.signed⟩
  case own =>
    rw [Function.forall_update_iff held fun j o' => TpmOwn device (data j) (s.set handle publicKey) o']
    refine ⟨hown, fun j hij => (h.own j).grow (fun other hj => TpmState.set_loaded_of_ne (hother hij hj)) ?_ ?_ ?_⟩
    all_goals exact List.Subset.refl _
  case alone =>
    by_cases hji : j = i
    · by_cases hki : k = i
      · rw [hji, hki]
      · subst hji
        rw [hself] at hj
        rw [hne hki] at hk
        exact absurd (hnames other hj) (hother hki hk)
    · rw [hne hji] at hj
      by_cases hki : k = i
      · subst hki
        rw [hself] at hk
        exact absurd (hnames other hk) (hother hji hj)
      · rw [hne hki] at hk
        exact h.alone j k other hj hk
  case accounted =>
    by_cases hhandle : other = handle
    · subst hhandle
      rw [TpmState.set_loaded_self] at hother'
      exact ⟨i, by rw [hself]; exact (hloaded pem hother').1⟩
    · rw [TpmState.set_loaded_of_ne hhandle] at hother'
      obtain ⟨j, hj⟩ := h.accounted other pem hother'
      have hij : j ≠ i := fun hij => hhandle (honly other (hij ▸ hj))
      exact ⟨j, by rw [hne hij]; exact hj⟩
  case apart =>
    by_cases hhandle : other = handle
    · subst hhandle
      rw [TpmState.set_loaded_self] at hother'
      exact (hloaded pem hother').2
    · rw [TpmState.set_loaded_of_ne hhandle] at hother'
      exact h.apart other pem hother'

/-- **A transient key made**, where there was none and by a call that had none. -/
theorem make (h : TpmInv device data s held) {i : ι} {handle : Nat} {publicKey : KeyPem}
    (hnone : ∀ other, ¬ (held i).key.names other) (hapart : device.persistent handle = none)
    (hfree : s.loaded handle = none) :
    TpmInv device data (s.set handle (some publicKey))
      (Function.update held i { held i with key := .transient handle publicKey }) := by
  refine h.rekey (fun j hj => ?_) (fun other hi => absurd hi (hnone other)) ?_ (fun other hnames => hnames.symm)
    fun _ _ => ⟨rfl, hapart⟩
  · obtain ⟨pem, hpem⟩ := (h.own j).loaded hj
    cases hfree.symm.trans hpem
  · obtain ⟨hasked, _, _, _, _, hread, hquoted⟩ := h.own i
    refine ⟨hasked, by simp, by simp, fun other pem hkey => ?_, by simp, hread, hquoted⟩
    cases hkey
    exact s.set_loaded_self handle _

/-- **A transient key flushed**, by the call that made it. -/
theorem flush (h : TpmInv device data s held) {i : ι} {handle : Nat} {publicKey : KeyPem}
    (hkey : (held i).key = .transient handle publicKey) :
    TpmInv device data (s.set handle none) (Function.update held i { held i with key := .nothing }) := by
  have hmine : (held i).key.names handle := by rw [hkey]; rfl
  refine h.rekey (fun j hj => h.alone j i handle hj hmine) (fun other hi => ?_) ?_ (fun _ hnames => hnames.elim) (by simp)
  · rw [hkey] at hi
    exact hi.symm
  · obtain ⟨hasked, _, _, _, _, hread, hquoted⟩ := h.own i
    exact ⟨hasked, by simp, by simp, by simp, by simp, hread, hquoted⟩

end TpmInv

end

/-- **The TPM keeps what is whose**, through any call that the discipline allows and whatever else is done with it. -/
theorem TpmDevice.kept {ι : Type} [DecidableEq ι] (device : TpmDevice) (data : ι → Option Bytes) :
    device.discipline.Kept device.host (TpmInv device data) where
  call := by
    intro s held i c r s' hinv hmay hserves
    -- a reply that tells the call nothing leaves it as it is
    have hstays : TpmInv device data s (Function.update held i (held i)) := by rwa [Function.update_eq_self]
    have hown := hinv.own i
    cases c with
    | connect =>
      cases hserves
      cases r with
      | error exc =>
        exact ⟨_, rfl, hinv.learn ⟨hown.asked, hown.opened, hown.persistent, hown.transient, hown.abandoned, hown.read,
          hown.quoted⟩ fun _ => Iff.rfl⟩
      | ok u => exact ⟨_, rfl, hstays⟩
    | readNv index =>
      cases hserves
      exact ⟨_, rfl, hstays⟩
    | fetch url =>
      cases hserves
      exact ⟨_, rfl, hstays⟩
    | pcrRead =>
      cases r with
      | error exc =>
        cases hserves
        exact ⟨_, rfl, hstays⟩
      | ok digests =>
        obtain ⟨⟨n, rfl⟩, rfl⟩ := hserves
        have hread : TpmInv device data s.read held :=
          hinv.grow rfl (List.Subset.refl _) (List.subset_cons_self ..) (List.Subset.refl _) hinv.signed
        obtain ⟨hasked, hopened, hpersistent, htransient, habandoned, _, hquoted⟩ := hread.own i
        refine ⟨_, ⟨s.bank, n, rfl, rfl⟩, hread.learn ⟨hasked, hopened, hpersistent, htransient, habandoned, ?_, hquoted⟩
          fun _ => Iff.rfl⟩
        intro bank hbank
        cases hbank
        exact List.mem_cons_self
    | trFromTpmpublic handle =>
      cases r with
      | error exc =>
        cases hserves
        exact ⟨_, rfl, hstays⟩
      | ok handle' =>
        obtain ⟨hpersistent, rfl⟩ := hserves
        refine ⟨_, rfl, hinv.learn ⟨hown.asked, fun other hkey => ?_, by simp, by simp, by simp, hown.read, hown.quoted⟩
          fun other => ?_⟩
        · cases hkey
          exact hpersistent
        · rw [show (held i).key = .nothing from hmay]
          exact Iff.rfl
    | readPublic handle =>
      cases r with
      | error exc =>
        cases hserves
        exact ⟨_, rfl, hstays⟩
      | ok publicKey =>
        obtain ⟨hpublic, rfl⟩ := hserves
        have hkey : (held i).key = .opened handle := hmay
        refine ⟨_, rfl, hinv.learn ⟨hown.asked, by simp, fun other pem hother => ?_, by simp, by simp, hown.read, hown.quoted⟩
          fun other => ?_⟩
        · cases hother
          obtain ⟨pem, hpem⟩ := hown.opened handle hkey
          rw [TpmState.publicOf, hpem] at hpublic
          exact hpem.trans hpublic
        · rw [hkey]
          exact Iff.rfl
    | createPrimary =>
      cases r with
      | error exc =>
        cases hserves
        exact ⟨_, rfl, hstays⟩
      | ok key =>
        obtain ⟨hapart, hfree, rfl⟩ := hserves
        exact ⟨_, rfl, hinv.make hmay hapart hfree⟩
    | quote handle d =>
      obtain ⟨hdata, publicKey, hsigns⟩ := hmay
      have hasks : data i = some d := hown.asked.symm.trans hdata
      have hsigned : TpmInv device data (s.sign d) held := by
        refine hinv.grow rfl (List.Subset.refl _) (List.Subset.refl _) (List.subset_cons_self ..) fun entry hentry => ?_
        rcases List.mem_cons.mp hentry with rfl | hentry
        · exact ⟨i, hasks⟩
        · exact hinv.signed entry hentry
      cases r with
      | error exc =>
        rcases hserves with rfl | rfl
        · exact ⟨_, rfl, hstays⟩
        · exact ⟨_, rfl, by rwa [Function.update_eq_self]⟩
      | ok quoted =>
        obtain ⟨publicKey', hpublic, hquote, rfl⟩ := hserves
        cases (hinv.publicOf hsigns).symm.trans hpublic
        obtain ⟨hasked, hopened, hpersistent, htransient, habandoned, hread, _⟩ := hsigned.own i
        refine ⟨_, ⟨publicKey, s.bank, hsigns, hquote, rfl⟩,
          hsigned.learn ⟨hasked, hopened, hpersistent, htransient, habandoned, hread, ?_⟩ fun _ => Iff.rfl⟩
        intro bank hbank
        cases hbank
        exact ⟨d, hasks, List.mem_cons_self⟩
    | flushContext handle =>
      obtain ⟨publicKey, hkey⟩ := hmay
      cases r with
      | error exc =>
        cases hserves
        have hstuck : TpmInv device data { s with stuck := handle :: s.stuck } held :=
          hinv.grow rfl (List.subset_cons_self ..) (List.Subset.refl _) (List.Subset.refl _) hinv.signed
        refine ⟨_, rfl, hstuck.learn ⟨hown.asked, by simp, by simp, by simp, fun other hother => ?_, hown.read, hown.quoted⟩
          fun other => ?_⟩
        · cases hother
          exact ⟨List.mem_cons_self, publicKey, hown.transient _ _ hkey⟩
        · rw [hkey]
          exact Iff.rfl
      | ok u =>
        cases hserves
        exact ⟨_, rfl, hinv.flush hkey⟩
  other := by
    intro s held s' hinv hchange
    obtain ⟨hseen, hquoted, hloaded, hstuck⟩ := hchange
    exact hinv.grow hloaded (hstuck ▸ List.Subset.refl _) (hseen ▸ List.Subset.refl _) (hquoted ▸ List.Subset.refl _)
      (hquoted ▸ hinv.signed)

/-! ## What the calls were answered -/

omit [Crypto] in
/-- What a call holds tells what it was answered: the connection refused, a transient key made, and one that was not
flushed. -/
structure TpmHeld.Tells (o : TpmHeld) (answers : List (Answer TpmCall TpmReply)) : Prop where
  refused : ∀ exc, o.refused = some exc → ⟨.connect, .error exc⟩ ∈ answers
  made : ∀ handle, o.key.names handle → ∃ publicKey, ⟨.createPrimary, .ok (handle, publicKey)⟩ ∈ answers
  abandoned : ∀ handle, o.key = .abandoned handle → ∃ exc, ⟨.flushContext handle, .error exc⟩ ∈ answers

omit [Crypto] in
theorem TpmHeld.Tells.mono {o : TpmHeld} {answers : List (Answer TpmCall TpmReply)} (h : o.Tells answers)
    (answer : Answer TpmCall TpmReply) : o.Tells (answer :: answers) where
  refused := fun exc hexc => List.mem_cons_of_mem _ (h.refused exc hexc)
  made := fun handle hnames => (h.made handle hnames).imp fun _ hmem => List.mem_cons_of_mem _ hmem
  abandoned := fun handle hkey => (h.abandoned handle hkey).imp fun _ hmem => List.mem_cons_of_mem _ hmem

omit [Crypto] in
/-- A call that has no transient key any more, or none yet, tells of no key. -/
theorem TpmHeld.Tells.rekey {o : TpmHeld} {answers : List (Answer TpmCall TpmReply)} (h : o.Tells answers) {hold : TpmHold}
    (hnames : ∀ handle, ¬ hold.names handle) : ({ o with key := hold } : TpmHeld).Tells answers where
  refused := h.refused
  made := fun handle hname => absurd hname (hnames handle)
  abandoned := by
    intro handle hkey
    have hhold : hold = .abandoned handle := hkey
    exact absurd (by rw [hhold]; rfl) (hnames handle)

/-- **One answer**: what the call then holds tells it. -/
theorem TpmHeld.Tells.answered (device : TpmDevice) (o : TpmHeld) (c : TpmCall) (r : TpmReply c) (o' : TpmHeld)
    (answers : List (Answer TpmCall TpmReply)) (h : o.Tells answers) (hmay : device.discipline.may o c)
    (heffect : device.discipline.effect o c r o') : o'.Tells (⟨c, r⟩ :: answers) := by
  have hsame := h.mono ⟨c, r⟩
  cases c with
  | connect =>
    cases r with
    | error exc =>
      cases heffect
      refine ⟨fun exc' hexc => ?_, hsame.made, hsame.abandoned⟩
      cases hexc
      exact List.mem_cons_self
    | ok u => exact heffect ▸ hsame
  | pcrRead =>
    cases r with
    | error exc => exact heffect ▸ hsame
    | ok digests =>
      obtain ⟨bank, n, _, rfl⟩ := heffect
      exact ⟨hsame.refused, hsame.made, hsame.abandoned⟩
  | readNv index => exact heffect ▸ hsame
  | fetch url => exact heffect ▸ hsame
  | trFromTpmpublic handle =>
    cases r with
    | error exc => exact heffect ▸ hsame
    | ok handle' =>
      cases heffect
      exact hsame.rekey (by simp [TpmHold.names])
  | readPublic handle =>
    cases r with
    | error exc => exact heffect ▸ hsame
    | ok publicKey =>
      cases heffect
      exact hsame.rekey (by simp [TpmHold.names])
  | createPrimary =>
    cases r with
    | error exc => exact heffect ▸ hsame
    | ok key =>
      cases heffect
      refine ⟨hsame.refused, fun handle hname => ?_, fun handle hkey => by cases hkey⟩
      cases hname
      exact ⟨key.2, List.mem_cons_self⟩
  | quote handle data =>
    cases r with
    | error exc => exact heffect ▸ hsame
    | ok quoted =>
      obtain ⟨publicKey, bank, _, _, rfl⟩ := heffect
      exact ⟨hsame.refused, hsame.made, hsame.abandoned⟩
  | flushContext handle =>
    obtain ⟨publicKey, hkey⟩ := hmay
    cases r with
    | error exc =>
      cases heffect
      refine ⟨hsame.refused, fun other hname => hsame.made other (by rw [hkey]; exact hname), fun other hother => ?_⟩
      cases hother
      exact ⟨exc, List.mem_cons_self⟩
    | ok u =>
      cases heffect
      exact hsame.rekey (by simp [TpmHold.names])

/-! ## What the calls return -/

omit [Crypto] in
/-- A TPM that nobody has worked with. -/
def TpmState.start (bank : PcrBank) : TpmState where
  bank
  seen := []
  quoted := []
  loaded := fun _ => none
  stuck := []

omit [Crypto] in
/-- A quote carries the digest of the registers that were quoted. -/
def TpmDevice.QuotesRegisters (device : TpmDevice) : Prop :=
  ∀ {publicKey : KeyPem} {data digest attest signature : Bytes} {quote : TpmQuote},
    device.Signs publicKey data digest attest signature → (TpmQuote.parse attest).result = .ok quote → quote.pcrDigest = digest

/-- **No register changed unseen**: of a TPM that quotes its registers, what was read is what was quoted, or the two collide. -/
theorem TpmEvidence.registers [Interp] {device : TpmDevice} {lib : CertLib} {call : TpmAttestCall}
    {report : AttestationReport} {attest signature pem : Bytes} {quote : TpmQuote} {read quoted : PcrBank}
    (h : TpmEvidence device lib call report attest signature pem quote read quoted) (hquotes : device.QuotesRegisters) :
    report.measurement = lit "sha256:" ++ hex quoted.digest ∧
      (read = quoted ∨ read.values.flatten ≠ quoted.values.flatten ∧ read.digest = quoted.digest) := by
  have hdigest : quote.pcrDigest = quoted.digest := hquotes h.signed h.parsed
  refine ⟨hdigest ▸ h.measured.2, ?_⟩
  by_cases hflatten : read.values.flatten = quoted.values.flatten
  · exact .inl (PcrBank.eq_of_flatten hflatten)
  · exact .inr ⟨hflatten, h.measured.1.symm.trans hdigest⟩

variable [Interp] {ι : Type} [DecidableEq ι]

omit [DecidableEq ι] in
theorem tpmStart_data {call : TpmAttestCall} {d : Bytes} :
    (tpmStart call).data = some d ↔ tpmQualifyingData call.publicKey call.nonce call.role = .ok d := by
  rw [tpmStart]
  cases tpmQualifyingData call.publicKey call.nonce call.role <;> simp [Except.toOption]

/-- A run of calls on a TPM that nobody has worked with: what each holds is so and tells what it was answered, and what each
returned it says. -/
theorem TpmDevice.trace_held (device : TpmDevice) {lib : CertLib} {env : ι → TpmEnv} {calls : ι → TpmAttestCall}
    {bank : PcrBank} {after : TpmState} {progs : ι → TpmProgram (Except TpmError AttestationReport)}
    {log : ι → List (Answer TpmCall TpmReply)}
    (htrace : device.host.Trace (.start bank, fun i => tpmAttest lib (env i) (calls i)) log (after, progs)) :
    ∃ held, TpmInv device (fun i => (tpmStart (calls i)).data) after held ∧ (∀ i, (held i).Tells (log i)) ∧
      ∀ i result, progs i = .ret result → TpmCollected device lib (calls i) result (held i) := by
  have hstart : TpmInv device (fun i => (tpmStart (calls i)).data) (.start bank) fun i => tpmStart (calls i) := by
    refine ⟨fun i => ⟨rfl, ?_, ?_, ?_, ?_, ?_, ?_⟩, fun i j _ h _ => h.elim, ?_, ?_, ?_⟩
    all_goals simp [tpmStart, TpmState.start]
  have htells : ∀ i, (tpmStart (calls i)).Tells [] := fun i =>
    ⟨fun exc h => (by cases h), fun handle h => h.elim, fun handle h => (by cases h)⟩
  obtain ⟨held, hinv, hmeets, htold⟩ := (device.kept fun i => (tpmStart (calls i)).data).trace TpmHeld.Tells
    (TpmHeld.Tells.answered device) htrace hstart htells fun i => tpmAttest_meets (env i) (calls i)
  refine ⟨held, hinv, htold, fun i result hret => ?_⟩
  have hpost := hmeets i
  simp only [hret] at hpost
  exact hpost

/-- **Attesting side by side on one TPM.** However many calls of `attest` are served at once, and whatever is done to the
registers meanwhile: each report is the caller's own, over evidence that the TPM signed over the caller's binding under the
key it names, and its measurement is of the registers that were read and, where quotes are of the registers, of those that
were quoted; a verifier is left with the chain and the library. The TPM signs for a collector only bindings that were asked
for; a transient key that is left was made for a call that still runs or whose flush of it failed; and a call raises what the
provider says it raises, the error of its binding, or that of its connection. -/
theorem tpm_attest (device : TpmDevice) (lib : CertLib) {env : ι → TpmEnv} {calls : ι → TpmAttestCall} {bank : PcrBank}
    {after : TpmState} {progs : ι → TpmProgram (Except TpmError AttestationReport)} {log : ι → List (Answer TpmCall TpmReply)}
    (htrace : device.host.Trace (.start bank, fun i => tpmAttest lib (env i) (calls i)) log (after, progs)) :
    (∀ i report, progs i = .ret (.ok report) → ∃ attest signature pem quote read quoted,
      TpmEvidence device lib (calls i) report attest signature pem quote read quoted ∧ read ∈ after.seen ∧
      (quote.qualifyingData, quoted) ∈ after.quoted ∧
      (device.QuotesRegisters → report.measurement = lit "sha256:" ++ hex quoted.digest ∧
        (read = quoted ∨ read.values.flatten ≠ quoted.values.flatten ∧ read.digest = quoted.digest)) ∧
      ∀ sdk trustedRootsPem measurement,
        verifyTpmReport sdk trustedRootsPem report (calls i).nonce = .ok measurement ↔
          measurement = report.measurement ∧ trustedRootsPem ≠ [] ∧ ∃ chain parsed,
            report.attestationKeyChainPem = some chain ∧ sdk.parseTpmtSignature signature = .ok parsed ∧
            sdk.verify attest (.parsed parsed) chain trustedRootsPem (some quote.qualifyingData) none = .ok true) ∧
    (∀ entry ∈ after.quoted, ∃ i,
      tpmQualifyingData (calls i).publicKey (calls i).nonce (calls i).role = .ok entry.1) ∧
    (∀ handle publicKey, after.loaded handle = some publicKey → ∃ i,
      (∃ made, ⟨.createPrimary, .ok (handle, made)⟩ ∈ log i) ∧
      ((∀ result, progs i ≠ .ret result) ∨ ∃ exc, ⟨.flushContext handle, .error exc⟩ ∈ log i)) ∧
    (∀ i e, progs i = .ret (.error e) → e.isExpected ∨ (∃ exc, e = .library exc ∧ ⟨.connect, .error exc⟩ ∈ log i) ∨
      ∃ x, tpmQualifyingData (calls i).publicKey (calls i).nonce (calls i).role = .error x ∧ e = .raised x) ∧
    ∀ i, (tpmDetect (env i) = true ↔ tpmRequireHost (env i) = .ok ()) ∧
      (tpmDetect (env i) = false → ∃ message detail, progs i = .ret (.error (.unsupported message detail))) := by
  obtain ⟨held, hinv, htold, hreturned⟩ := device.trace_held htrace
  refine ⟨fun i report hret => ?_, fun entry hentry => ?_, fun handle publicKey hloaded => ?_, fun i e hret => ?_,
    fun i => ⟨(tpmRequireHost_iff (env i)).1.symm, fun hdetect => ?_⟩⟩
  · obtain ⟨attest, signature, pem, quote, read, quoted, hread, hquoted, hevidence⟩ := (hreturned i _ hret).report report rfl
    refine ⟨attest, signature, pem, quote, read, quoted, hevidence, (hinv.own i).read read hread, ?_, hevidence.registers,
      hevidence.verified_iff⟩
    obtain ⟨d, hd, hmem⟩ := (hinv.own i).quoted quoted hquoted
    cases (tpmStart_data.mp hd).symm.trans hevidence.binding
    exact hmem
  · obtain ⟨i, hi⟩ := hinv.signed entry hentry
    exact ⟨i, tpmStart_data.mp hi⟩
  · obtain ⟨i, hnames⟩ := hinv.accounted handle publicKey hloaded
    refine ⟨i, (htold i).made handle hnames, ?_⟩
    by_cases hdone : ∃ result, progs i = .ret result
    · obtain ⟨result, hret⟩ := hdone
      -- a call that has returned has flushed its key, or could not
      cases hkey : (held i).key with
      | transient handle' publicKey' => exact absurd hkey ((hreturned i _ hret).flushed _ _)
      | abandoned handle' =>
        rw [hkey] at hnames
        cases hnames
        exact .inr ((htold i).abandoned _ hkey)
      | nothing | opened _ | persistent _ _ =>
        rw [hkey] at hnames
        exact hnames.elim
    · exact .inl fun result hret => hdone ⟨result, hret⟩
  · refine ((hreturned i _ hret).failed e rfl).imp_right (Or.imp_left fun hlibrary => ?_)
    obtain ⟨exc, he, hrefused⟩ := hlibrary
    exact ⟨exc, he, (htold i).refused exc hrefused⟩
  · cases hhost : tpmRequireHost (env i) with
    | ok u =>
      rw [(tpmRequireHost_iff (env i)).1.mp hhost] at hdetect
      cases hdetect
    | error e =>
      obtain ⟨message, detail, rfl⟩ := (tpmRequireHost_iff (env i)).2 e hhost
      exact ⟨message, detail, htrace.run.returned (by simp only [tpmAttest, hhost])⟩

end

/-! ## A TPM with a certified key -/

/-- A certificate that is the key it certifies. -/
def ownCerts : CertLib where
  Cert := Bytes
  loadDer := .ok
  loadPem := .ok
  loadDerPkcs7 := fun data => .ok [data]
  loadPemPkcs7 := fun data => .ok [data]
  loadPemCertificates := fun data => .ok [data]
  selfIssued := fun _ => .ok true
  aia := fun _ => .ok none
  publicPem := .ok
  pem := id

/-- A TPM with one provisioned key, that quotes what it is asked to. -/
def provisionedTpm : TpmDevice where
  persistent := fun handle => if handle = platformAkHandle then some (.ok [7]) else none
  Signs := fun publicKey data digest attest _ => publicKey = .ok [7] ∧ ∃ a : TpmsAttest, a.magic = tpmGeneratedValue ∧
    a.attestType = tpmStAttestQuote ∧ a.extraData = data ∧ a.pcrDigest = digest ∧ attest = a.encode

theorem provisionedTpm_quotesRegisters : provisionedTpm.QuotesRegisters := by
  intro publicKey data digest attest signature quote hsigns hparse
  obtain ⟨_, a, _, _, _, rfl, rfl⟩ := hsigns
  have hencode := TpmQuote.parse_encode a []
  rw [List.append_nil] at hencode
  cases hencode.symm.trans hparse
  rfl

/-- Registers that nothing was measured into. -/
def freshBank : PcrBank where
  values := List.replicate 8 (List.replicate 32 0)
  count := rfl
  width := by decide

/-- A Linux host with a TPM. -/
def tpmHost : TpmEnv where
  platform := lit "linux"
  present := fun _ => true
  bindings := true

/-- A call that nothing fails, on the provisioned TPM. -/
theorem run_quoted [Interp] [Crypto] {call : TpmAttestCall} {data : Bytes}
    {q : TpmProgram (Except TpmError AttestationReport)}
    (hbinding : tpmQualifyingData call.publicKey call.nonce call.role = .ok data) (hdata : data.length < 256 ^ 2)
    (hdigest : freshBank.digest.length < 256 ^ 2) :
    ∃ after report, provisionedTpm.host.Run (.start freshBank, sideBySide (tpmAttest ownCerts tpmHost call) q)
      (after, sideBySide (.ret (.ok report)) q) ∧ report.attestationKeyChainPem = some [7] := by
  let s : TpmState := .start freshBank
  let attest : TpmsAttest :=
    { magic := tpmGeneratedValue, attestType := tpmStAttestQuote, qualifiedSigner := [], extraData := data
      clockAndFirmware := List.replicate 25 0, pcrSelections := [], pcrDigest := freshBank.digest
      magic_lt := by decide, attestType_lt := by decide, qualifiedSigner_lt := by decide, extraData_lt := hdata
      clockAndFirmware_length := rfl, pcrSelections_lt := by decide, pcrDigest_lt := hdigest }
  have hparse : (TpmQuote.parse attest.encode).result = .ok (attest.quote attest.encode) := by
    have hencode := TpmQuote.parse_encode attest []
    rwa [List.append_nil] at hencode
  have hreport : ∃ report, tpmReport call data freshBank.digest (some [7]) (attest.encode, [], [7]) = .ok report ∧
      report.attestationKeyChainPem = some [7] := by
    have hcheck : checkQuote (attest.quote attest.encode) data freshBank.digest = .ok () := by
      simp [checkQuote, TpmsAttest.quote, attest]
    simp only [tpmReport, hparse, Except.mapError, ok_bind, hcheck]
    exact ⟨_, rfl, rfl⟩
  obtain ⟨report, hreport, hchain⟩ := hreport
  have hhost : tpmRequireHost tpmHost = .ok () := (tpmRequireHost_iff tpmHost).1.mpr (by decide)
  have hkey : provisionedTpm.persistent platformAkHandle = some (.ok [7]) := by simp [provisionedTpm]
  have hpublic : ∀ s : TpmState, s.publicOf provisionedTpm platformAkHandle = some (.ok [7]) := by
    intro s
    rw [TpmState.publicOf, hkey]
  refine ⟨s.read.sign data, report, ?_, hchain⟩
  rw [tpmAttest, hhost]
  dsimp only
  rw [tpmCollect, hbinding]
  refine run_left s (.ok ()) rfl ?_
  refine run_left s.read (.ok freshBank.values) ⟨⟨8, rfl⟩, rfl⟩ ?_
  refine run_left s.read (some [7]) rfl ?_
  refine run_left s.read (.ok platformAkHandle) ⟨⟨_, hkey⟩, rfl⟩ ?_
  refine run_left s.read (.ok (.ok [7])) ⟨hpublic _, rfl⟩ ?_
  refine run_left (s.read.sign data) (.ok (attest.encode, []))
    ⟨.ok [7], hpublic _, ⟨rfl, attest, rfl, rfl, rfl, rfl, rfl⟩, rfl⟩ ?_
  rw [← hreport]
  exact .refl

/-- Two calls of `attest`, one on the provisioned TPM and one on a host that is not Linux. -/
def twoHosts (b : Bool) : TpmEnv := bif b then tpmHost else { tpmHost with platform := lit "darwin" }

/-- What both ask for. -/
def plainCall : TpmAttestCall := ⟨lit "k", lit "n", roleCallee⟩

theorem exists_run_twoHosts :
    let _ := Interp.ascii
    let _ := Crypto.prefixDigest
    ∃ after progs report, provisionedTpm.host.Run (.start freshBank, fun b => tpmAttest ownCerts (twoHosts b) plainCall)
        (after, progs) ∧ progs true = .ret (.ok report) ∧ report.attestationKeyChainPem = some [7] := by
  intro _ _
  have hfield : (tpmQualifyingData (lit "k") (lit "n") roleCallee).toOption.map List.length = some 32 := by decide +kernel
  cases hbinding : tpmQualifyingData (lit "k") (lit "n") roleCallee with
  | error e =>
    rw [hbinding] at hfield
    cases hfield
  | ok data =>
    rw [hbinding] at hfield
    have hdata : data.length = 32 := Option.some.inj hfield
    have hdigest : freshBank.digest.length = 32 := prefixDigest_length _
    let other : TpmProgram (Except TpmError AttestationReport) := tpmAttest ownCerts (twoHosts false) plainCall
    have hprogs : (fun b => tpmAttest ownCerts (twoHosts b) plainCall) =
        sideBySide (tpmAttest ownCerts tpmHost plainCall) other := by
      funext b
      cases b <;> rfl
    obtain ⟨after, report, hrun, hchain⟩ : ∃ after report, provisionedTpm.host.Run
        (.start freshBank, sideBySide (tpmAttest ownCerts tpmHost plainCall) other)
        (after, sideBySide (.ret (.ok report)) other) ∧ report.attestationKeyChainPem = some [7] :=
      run_quoted hbinding (by omega) (by omega)
    exact ⟨after, _, report, hprogs ▸ hrun, rfl, hchain⟩

theorem tpm_attest_twoHosts :
    let _ := Interp.ascii
    let _ := Crypto.prefixDigest
    ∃ after progs report attest signature pem quote read quoted, provisionedTpm.host.Run
        (.start freshBank, fun b => tpmAttest ownCerts (twoHosts b) plainCall) (after, progs) ∧
      progs true = .ret (.ok report) ∧ report.attestationKeyChainPem = some [7] ∧
      TpmEvidence provisionedTpm ownCerts plainCall report attest signature pem quote read quoted ∧
      report.measurement = lit "sha256:" ++ hex quoted.digest ∧
      ∃ message detail, progs false = .ret (.error (.unsupported message detail)) := by
  intro _ _
  obtain ⟨after, progs, report, hrun, hret, hchain⟩ := exists_run_twoHosts
  obtain ⟨log, htrace⟩ := hrun.exists_trace
  obtain ⟨hreports, _, _, _, hhosts⟩ := tpm_attest provisionedTpm ownCerts htrace
  obtain ⟨attest, signature, pem, quote, read, quoted, hevidence, _, _, hregisters, _⟩ := hreports true report hret
  exact ⟨after, progs, report, attest, signature, pem, quote, read, quoted, hrun, hret, hchain, hevidence,
    (hregisters provisionedTpm_quotesRegisters).1, (hhosts false).2 (by decide)⟩

end Ca2a
