/-
Which challenges `verify_challenge` accepts, after any calls of
`issue_challenge`.

The expiry is read with `int` and written back into the message whose tag is
compared, so the tag says nothing about how the expiry was spelled: `+1000`,
`01000` and `1_000` all name the second 1000. An issued challenge is accepted
in each of its spellings, and apart from these exactly the issued challenges
are, until they expire.
-/
import Ca2a.Challenge

namespace Ca2a

open Py

/-! ## Issued challenges -/

/-- One call of `issue_challenge`. -/
structure IssueCall where
  secret : Bytes
  ttlSeconds : Int
  clock : Int
  random : Bytes

/-- What the tag of a challenge is computed over. -/
def challengeMessage (expiry : Int) (rand : Str) : Str := lit "v1." ++ strInt expiry ++ lit "." ++ rand

section
variable [Interp]

/-- The challenge has this expiry, random part and tag, whichever way the expiry is spelled. -/
def Reads (challenge : Str) (expiry : Int) (rand mac : Str) : Prop :=
  ∃ expiryStr, challenge.splitOn (cp '.') = [lit "v1", expiryStr, rand, mac] ∧ int? expiryStr = some expiry

/-- Another text for the same expiry, random part and tag. -/
def Respells (challenge issued : Str) : Prop :=
  challenge ≠ issued ∧ ∃ expiry rand mac, Reads challenge expiry rand mac ∧ Reads issued expiry rand mac

variable [Crypto]

/-- What the call returned. -/
def IssueCall.Returned (call : IssueCall) (challenge : Str) : Prop :=
  issueChallenge call.secret call.ttlSeconds call.clock call.random = .ok challenge

/-- A call has returned the challenge under the secret, and it has not expired. -/
def Live (history : List IssueCall) (secret : Bytes) (now : Int) (challenge : Str) : Prop :=
  ∃ call ∈ history, call.secret = secret ∧ call.Returned challenge ∧ now < call.clock + call.ttlSeconds

/-- The tag of the challenge verifies only for what a call has computed it for: this secret and this message. -/
def IdealTag (history : List IssueCall) (secret : Bytes) (challenge : Str) : Prop :=
  ∀ expiry rand mac, Reads challenge expiry rand mac → challengeMac secret expiry rand = .ok mac →
    ∃ call ∈ history, call.secret = secret ∧ (∃ issued, call.Returned issued) ∧
      challengeMessage (call.clock + call.ttlSeconds) (hex call.random) = challengeMessage expiry rand

/-! ## Reading a challenge -/

omit [Crypto] in
theorem Reads.unique {challenge rand rand' mac mac' : Str} {expiry expiry' : Int} (h : Reads challenge expiry rand mac)
    (h' : Reads challenge expiry' rand' mac') : expiry = expiry' ∧ rand = rand' ∧ mac = mac' := by
  obtain ⟨text, hsplit, hint⟩ := h
  obtain ⟨text', hsplit', hint'⟩ := h'
  rw [hsplit] at hsplit'
  obtain ⟨htext, hrand, hmac⟩ : text = text' ∧ rand = rand' ∧ mac = mac' := by simpa using hsplit'
  rw [htext, hint', Option.some.injEq] at hint
  exact ⟨hint.symm, hrand, hmac⟩

/-- **When a challenge verifies**, in terms of what it reads as. -/
theorem verifyChallenge_ok_iff {secret : Bytes} {challenge : Str} {now : Int} :
    verifyChallenge secret challenge now = .ok () ↔ ∃ expiry rand mac, Reads challenge expiry rand mac ∧
      isLowerHex 64 mac = true ∧ challengeMac secret expiry rand = .ok mac ∧ now < expiry := by
  constructor
  · intro h
    unfold verifyChallenge at h
    split at h
    · rename_i version text rand mac hsplit
      split at h
      · cases h
      rename_i hversion
      obtain rfl : version = lit "v1" := not_not.mp hversion
      split at h
      · cases h
      rename_i hlow
      split at h
      · cases h
      rename_i expiry hint
      obtain ⟨expected, hmac, h⟩ := bind_ok_iff.mp h
      split at h
      · cases h
      rename_i hsame
      obtain rfl : mac = expected := not_not.mp hsame
      split at h
      · cases h
      rename_i hnow
      exact ⟨expiry, rand, mac, ⟨text, hsplit, hint⟩, by simpa using hlow, hmac, not_le.mp hnow⟩
    · cases h
  · intro h
    obtain ⟨expiry, rand, mac, ⟨text, hsplit, hint⟩, hlow, hmac, hnow⟩ := h
    simp only [verifyChallenge, hsplit, ne_eq, not_true_eq_false, if_false, hlow, Bool.true_eq_false, hint, hmac, ok_bind]
    exact if_neg (not_le.mpr hnow)

/-- What an issued challenge is, and reads as. -/
theorem IssueCall.Returned.reads {call : IssueCall} {challenge : Str} (h : call.Returned challenge) :
    ∃ mac, challengeMac call.secret (call.clock + call.ttlSeconds) (hex call.random) = .ok mac ∧
      Reads challenge (call.clock + call.ttlSeconds) (hex call.random) mac ∧
      challenge = challengeMessage (call.clock + call.ttlSeconds) (hex call.random) ++ lit "." ++ mac := by
  obtain ⟨hdigits, mac, hmac, rfl⟩ := issueChallenge_ok h
  obtain ⟨msg, rfl⟩ := challengeMac_ok hmac
  exact ⟨_, hmac, ⟨strInt (call.clock + call.ttlSeconds), splitOn_challenge _ _ _, int?_strInt hdigits⟩, rfl⟩

/-- An issued challenge is written in one way, so it respells no other. -/
theorem IssueCall.Returned.not_respells {call call' : IssueCall} {challenge issued : Str} (h : call.Returned challenge)
    (h' : call'.Returned issued) : ¬ Respells challenge issued := by
  intro h
  obtain ⟨hne, expiry, rand, mac, hreads, hreads'⟩ := h
  obtain ⟨_, _, hread, hform⟩ := h.reads
  obtain ⟨_, _, hread', hform'⟩ := h'.reads
  obtain ⟨hexpiry, hrand, hmac⟩ := hread.unique hreads
  obtain ⟨hexpiry', hrand', hmac'⟩ := hread'.unique hreads'
  rw [hexpiry, hrand, hmac] at hform
  rw [hexpiry', hrand', hmac'] at hform'
  exact hne (hform.trans hform'.symm)

omit [Interp] [Crypto] in
/-- The message determines what it is about. -/
theorem challengeMessage_inj {expiry expiry' : Int} {rand rand' : Str}
    (h : challengeMessage expiry rand = challengeMessage expiry' rand') : expiry = expiry' ∧ rand = rand' := by
  have hjoin : ∀ e r, challengeMessage e r = lit "v1." ++ (strInt e ++ cp '.' :: r) := by
    intro e r
    simp [challengeMessage, lit]
  rw [hjoin, hjoin, List.append_cancel_left_eq] at h
  have hsplit := congrArg (·.splitOn (cp '.')) h
  simp only [List.splitOn_append_cons_self_of_not_mem (dot_not_mem_strInt _), List.cons.injEq] at hsplit
  rw [hsplit.1, List.append_cancel_left_eq, List.cons.injEq] at h
  exact ⟨strInt_injective hsplit.1, h.2⟩

/-! ## Acceptance -/

/-- An issued challenge verifies until it expires. -/
theorem Live.verifies (hmac : ∀ key msg, (Crypto.hmac key msg).length = 32) {history : List IssueCall} {secret : Bytes}
    {now : Int} {challenge : Str} (h : Live history secret now challenge) : verifyChallenge secret challenge now = .ok () := by
  obtain ⟨call, _, rfl, hreturned, hnow⟩ := h
  exact verifyChallenge_of_issue hmac hreturned hnow

/-- What verifies reads as an issued challenge that has not expired. -/
theorem exists_live_of_verifies {history : List IssueCall} {secret : Bytes} {challenge : Str} {now : Int}
    (hideal : IdealTag history secret challenge) (h : verifyChallenge secret challenge now = .ok ()) :
    ∃ issued, Live history secret now issued ∧
      ∃ expiry rand mac, Reads challenge expiry rand mac ∧ Reads issued expiry rand mac := by
  obtain ⟨expiry, rand, mac, hreads, _, hmac, hnow⟩ := verifyChallenge_ok_iff.mp h
  obtain ⟨call, hcall, rfl, ⟨issued, hreturned⟩, hmessage⟩ := hideal expiry rand mac hreads hmac
  obtain ⟨rfl, rfl⟩ := challengeMessage_inj hmessage
  obtain ⟨mac', hmac', hreads', _⟩ := hreturned.reads
  cases hmac.symm.trans hmac'
  exact ⟨issued, ⟨call, hcall, rfl, hreturned, hnow⟩, _, _, _, hreads, hreads'⟩

/-- **`verify_challenge` accepts exactly the issued, unexpired challenges, but for their other spellings.** With a tag that
verifies only for what it was computed for, the two agree on a string unless it is another spelling of an issued challenge
that has not expired. -/
theorem verifyChallenge_issued_iff (hmac : ∀ key msg, (Crypto.hmac key msg).length = 32) (history : List IssueCall)
    (secret : Bytes) (challenge : Str) (now : Int) (hideal : IdealTag history secret challenge) :
    (verifyChallenge secret challenge now = .ok () ↔ Live history secret now challenge) ↔
      ¬ ∃ issued, Live history secret now issued ∧ Respells challenge issued := by
  constructor
  · intro h ⟨issued, hlive, hrespells⟩
    obtain ⟨_, expiry, rand, mac, hreads, hreads'⟩ := id hrespells
    -- it verifies, since nothing but the spelling tells it from the issued one
    have hverifies : verifyChallenge secret challenge now = .ok () := by
      obtain ⟨_, _, _, hissued, hlow, htag, hnow⟩ := verifyChallenge_ok_iff.mp (hlive.verifies hmac)
      obtain ⟨rfl, rfl, rfl⟩ := hissued.unique hreads'
      exact verifyChallenge_ok_iff.mpr ⟨_, _, _, hreads, hlow, htag, hnow⟩
    obtain ⟨_, _, _, hreturned, _⟩ := h.mp hverifies
    obtain ⟨_, _, _, hreturned', _⟩ := hlive
    exact hreturned.not_respells hreturned' hrespells
  · intro hspelled
    refine ⟨fun h => ?_, fun h => h.verifies hmac⟩
    obtain ⟨issued, hlive, hreads⟩ := exists_live_of_verifies hideal h
    by_cases hsame : challenge = issued
    · exact hsame ▸ hlive
    · exact absurd ⟨issued, hlive, hsame, hreads⟩ hspelled

end

/-! ## A second spelling -/

/-- A challenge for the second 1000. -/
def toyCall : IssueCall where
  secret := []
  ttlSeconds := 60
  clock := 940
  random := List.replicate 16 0xAB

/-- The challenge of `toyCall` with a sign before its expiry. -/
def signedChallenge : Str :=
  lit "v1.+1000." ++ hex (List.replicate 16 0xAB) ++ lit "." ++ List.replicate 64 (cp '0')

/-- What `toyCall` returned. -/
def plainChallenge : Str :=
  lit "v1.1000." ++ hex (List.replicate 16 0xAB) ++ lit "." ++ List.replicate 64 (cp '0')

theorem toyCall_returned : @IssueCall.Returned Interp.ascii Crypto.toy toyCall plainChallenge := rfl

theorem reads_signedChallenge : @Reads Interp.ascii signedChallenge 1000 (hex (List.replicate 16 0xAB))
    (List.replicate 64 (cp '0')) :=
  ⟨lit "+1000", by decide +kernel, by decide +kernel⟩

/-- The signed spelling is accepted, and was not issued. -/
theorem verifyChallenge_signedChallenge :
    let _ := Interp.ascii
    let _ := Crypto.toy
    IdealTag [toyCall] [] signedChallenge ∧ verifyChallenge [] signedChallenge 999 = .ok () ∧
      ¬ Live [toyCall] [] 999 signedChallenge := by
  intro _ _
  have hrun : (verifyChallenge [] signedChallenge 999).isOk = true := by decide +kernel
  obtain ⟨_, hverifies⟩ := exists_of_isOk hrun
  refine ⟨fun expiry rand mac hreads _ => ?_, hverifies, ?_⟩
  · obtain ⟨rfl, rfl, rfl⟩ := hreads.unique reads_signedChallenge
    exact ⟨toyCall, by simp, rfl, ⟨plainChallenge, toyCall_returned⟩, rfl⟩
  · intro h
    obtain ⟨call, hcall, _, hreturned, _⟩ := h
    obtain rfl := List.mem_singleton.mp hcall
    have hsame : plainChallenge = signedChallenge := Except.ok.inj (toyCall_returned.symm.trans hreturned)
    exact absurd hsame (by decide +kernel)

theorem verifyChallenge_issued_iff_toyCall :
    let _ := Interp.ascii
    let _ := Crypto.toy
    verifyChallenge [] plainChallenge 999 = .ok () ↔ Live [toyCall] [] 999 plainChallenge := by
  intro _ _
  have hideal : IdealTag [toyCall] [] plainChallenge := by
    intro expiry rand mac hreads _
    obtain ⟨_, _, hreads', _⟩ := toyCall_returned.reads
    obtain ⟨rfl, rfl, _⟩ := hreads.unique hreads'
    exact ⟨toyCall, by simp, rfl, ⟨plainChallenge, toyCall_returned⟩, rfl⟩
  have hiff := verifyChallenge_issued_iff (fun _ _ => List.length_replicate) [toyCall] [] plainChallenge 999 hideal
  refine hiff.mpr fun hspelled => ?_
  obtain ⟨issued, hlive, hrespells⟩ := hspelled
  obtain ⟨_, _, _, hreturned, _⟩ := hlive
  exact toyCall_returned.not_respells hreturned hrespells

end Ca2a
