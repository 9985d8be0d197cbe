/-
`ca2a_runtime.challenge`: the stateless challenges a callee issues,
`v1.<expiry>.<random>.<mac>`.

Everything in a challenge but its shape is attacker-chosen text. The random
part is encoded before the MAC over it is compared, and nothing has looked
at it by then, so an unpaired surrogate there raises `UnicodeEncodeError`
and not `AttestationFailed` (`challengeMac`).
-/
import Ca2a.Credential

namespace Ca2a

open Py

variable [Interp] [Crypto]

omit [Interp] [Crypto] in
/-- `DEFAULT_TTL_SECONDS` -/
def defaultTtlSeconds : Int := 60

/-- `_mac` -/
def challengeMac (secret : Bytes) (expiry : Int) (rand : Str) : Result Str := do
  let msg ← utf8 (lit "v1." ++ strInt expiry ++ lit "." ++ rand)
  .ok (hex (Crypto.hmac secret msg))

/-- `issue_challenge`, at the time `clock` and with the 16 octets `random`. -/
def issueChallenge (secret : Bytes) (ttlSeconds clock : Int) (random : Bytes) : Result Str :=
  if ttlSeconds ≤ 0 then
    .error (.builtin .valueError
      (lit "ttl_seconds must be positive; a challenge that never validates is not a challenge"))
  else if (decimal (clock + ttlSeconds).natAbs).length > maxStrDigits then
    -- the interpreter does not print an integer of this length
    .error (.builtin .valueError (Interp.errorText "str" []))
  else do
    let expiry := clock + ttlSeconds
    let rand := hex random
    let mac ← challengeMac secret expiry rand
    .ok (lit "v1." ++ strInt expiry ++ lit "." ++ rand ++ lit "." ++ mac)

/-- `verify_challenge`, at the time `now`. -/
def verifyChallenge (secret : Bytes) (challenge : Str) (now : Int) : Result Unit :=
  match challenge.splitOn (cp '.') with
  | [version, expiryStr, rand, mac] =>
    if version ≠ lit "v1" then malformed
    else if isLowerHex 64 mac = false then
      raise .attestationFailed (lit "challenge is malformed") (some (lit "the MAC is not 64 lowercase hex characters"))
    else
      match int? expiryStr with
      | none => raise .attestationFailed (lit "challenge expiry is not an integer")
      | some expiry => do
        let expected ← challengeMac secret expiry rand
        if mac ≠ expected then
          raise .attestationFailed (lit "challenge was not issued by this peer")
            (some (lit "the MAC does not verify under this peer's challenge secret"))
        else if now ≥ expiry then
          raise .attestationFailed (lit "challenge has expired")
            (some (lit "challenges are valid for a bounded window; this is a stateless scheme, so the window is " ++
              lit "the only replay bound there is"))
        else .ok ()
  | _ => malformed
where
  malformed : Result Unit :=
    raise .attestationFailed (lit "challenge is malformed") (some (lit "expected v1.<expiry>.<random>.<mac>"))

theorem challengeMac_ok {secret : Bytes} {expiry : Int} {rand mac : Str} (h : challengeMac secret expiry rand = .ok mac) :
    ∃ msg, mac = hex (Crypto.hmac secret msg) := by
  rw [challengeMac, bind_ok_iff] at h
  obtain ⟨msg, _, h⟩ := h
  cases h
  exact ⟨msg, rfl⟩

/-- What an issued challenge is made of. -/
theorem issueChallenge_ok {secret : Bytes} {ttlSeconds clock : Int} {random : Bytes} {challenge : Str}
    (h : issueChallenge secret ttlSeconds clock random = .ok challenge) :
    (decimal (clock + ttlSeconds).natAbs).length ≤ maxStrDigits ∧
      ∃ mac, challengeMac secret (clock + ttlSeconds) (hex random) = .ok mac ∧
        challenge = lit "v1." ++ strInt (clock + ttlSeconds) ++ lit "." ++ hex random ++ lit "." ++ mac := by
  unfold issueChallenge at h
  split at h
  · cases h
  split at h
  · cases h
  rename_i hdigits
  rw [bind_ok_iff] at h
  obtain ⟨mac, hmac, h⟩ := h
  cases h
  exact ⟨not_lt.mp hdigits, mac, hmac, rfl⟩

omit [Interp] [Crypto] in
theorem dot_not_mem_strInt (i : Int) : cp '.' ∉ strInt i := by
  intro h
  cases i with
  | ofNat n => exact absurd (decimal_isDigit h) (by decide)
  | negSucc n =>
    rcases List.mem_cons.mp h with h | h
    · exact absurd h (by decide)
    · exact absurd (decimal_isDigit h) (by decide)

omit [Interp] [Crypto] in
/-- The fields of an issued challenge. -/
theorem splitOn_challenge (expiry : Int) (random tag : Bytes) :
    (lit "v1." ++ strInt expiry ++ lit "." ++ hex random ++ lit "." ++ hex tag).splitOn (cp '.') =
      [lit "v1", strInt expiry, hex random, hex tag] := by
  have hjoin : lit "v1." ++ strInt expiry ++ lit "." ++ hex random ++ lit "." ++ hex tag =
      lit "v1" ++ cp '.' :: (strInt expiry ++ cp '.' :: (hex random ++ cp '.' :: hex tag)) := by simp [lit]
  have hdot : ∀ b, cp '.' ∉ hex b := not_mem_hex (by decide)
  rw [hjoin, List.splitOn_append_cons_self_of_not_mem (by decide),
    List.splitOn_append_cons_self_of_not_mem (dot_not_mem_strInt _),
    List.splitOn_append_cons_self_of_not_mem (hdot _), List.splitOn_eq_singleton (hdot _)]

/-- **A challenge verifies at its issuer until it expires.** -/
theorem verifyChallenge_of_issue (hmac : ∀ key msg, (Crypto.hmac key msg).length = 32) {secret : Bytes}
    {ttlSeconds clock now : Int} {random : Bytes} {challenge : Str}
    (h : issueChallenge secret ttlSeconds clock random = .ok challenge) (hnow : now < clock + ttlSeconds) :
    verifyChallenge secret challenge now = .ok () := by
  obtain ⟨hdigits, mac, hm, rfl⟩ := issueChallenge_ok h
  obtain ⟨msg, rfl⟩ := challengeMac_ok hm
  have hlow : isLowerHex 64 (hex (Crypto.hmac secret msg)) = true := isLowerHex_hex (by rw [hmac])
  simp only [verifyChallenge, splitOn_challenge, ne_eq, not_true_eq_false, if_false, hlow, Bool.true_eq_false,
    int?_strInt hdigits, hm, ok_bind]
  exact if_neg (not_le.mpr hnow)

theorem issueChallenge_clean {secret : Bytes} {ttlSeconds clock : Int} {random : Bytes} {challenge : Str}
    (h : issueChallenge secret ttlSeconds clock random = .ok challenge) : Clean challenge ∧ challenge ≠ [] := by
  obtain ⟨_, mac, hm, rfl⟩ := issueChallenge_ok h
  obtain ⟨msg, rfl⟩ := challengeMac_ok hm
  exact ⟨by simp, by simp [lit]⟩

end Ca2a
