/-
A pending response is used once, whatever the callers and the clock do.

The first call to take the lock spends the response before it looks at the
bytes, so every other call finds it used (`serial_verify`). Interleaving
adds nothing (`Py.Monitor.serializable`).
-/
import Ca2a.ResponseExchange

namespace Ca2a

open Py

namespace PendingResponse

section
variable [Interp] [Crypto]

theorem verifySection_run (call : VerifyCall) (pending : PendingResponse) :
    (verifySection call).run pending = pending.verify call := rfl

/-- Calls on a used response fail and change nothing. -/
theorem serial_verify_used {pending : PendingResponse} (hu : pending.used = true) (calls : List VerifyCall) :
    serial verifySection pending calls = (calls.map fun call => (call, responseFail), pending) := by
  induction calls with
  | nil => rfl
  | cons call calls ih =>
    have hv : (verifySection call).run pending = (responseFail, pending) := by
      rw [verifySection_run, verify_eq, if_pos hu]
    simp only [serial, hv, ih, List.map_cons]

/-- **A history of calls on a fresh response**: the first is looked at, the others fail. -/
theorem serial_verify {pending : PendingResponse} (hu : pending.used = false) (call : VerifyCall)
    (calls : List VerifyCall) :
    serial verifySection pending (call :: calls) =
      ((call, pending.authenticate pending.key call) :: calls.map fun call => (call, responseFail), pending.spent) := by
  have hv : (verifySection call).run pending = (pending.authenticate pending.key call, pending.spent) := by
    rw [verifySection_run, verify_eq, if_neg (by simp [hu])]
  have hspent : pending.spent.used = true := rfl
  simp only [serial, hv, serial_verify_used hspent]

/-- A spent response stays as it is. -/
theorem verifySection_keeps_spent (pending : PendingResponse) (call : VerifyCall) :
    (verifySection call).Keeps (· = pending.spent) := by
  rintro _ rfl
  exact ⟨rfl, by simp [spent, Section.Keeps]⟩

/-- The log of any interleaving: empty, or one call that was looked at and others that failed. -/
theorem log_of_reaches {pending : PendingResponse} (hu : pending.used = false)
    {m : Monitor PendingResponse VerifyCall (Result VerifiedResponse)}
    (hm : Monitor.Reaches verifySection (.start pending) m) :
    m.log = [] ∨ ∃ (call : VerifyCall) (calls : List VerifyCall),
      m.log = (call, pending.authenticate pending.key call) :: calls.map fun call => (call, responseFail) := by
  have hlog := (Monitor.serializable hm).1
  cases hc : m.log.map (·.1) with
  | nil => exact .inl (List.map_eq_nil_iff.mp hc)
  | cons call calls =>
    rw [hc, serial_verify hu] at hlog
    exact .inr ⟨call, calls, hlog.symm⟩

/-- **One use, in time, and one way to fail**: in every interleaving of calls of `verify`. -/
theorem pendingResponse_history {peer : VerifiedPeer} {message : JsonDict} {timeout : PyFloat}
    {ephemeral : Crypto.XKey} {session : Bytes} {clock : Result PyFloat} {pending : PendingResponse}
    (hp : create peer message timeout ephemeral session clock = .ok pending)
    {m : Monitor PendingResponse VerifyCall (Result VerifiedResponse)}
    (hm : Monitor.Reaches verifySection (.start pending) m) :
    m.log.countP (fun entry => entry.2.isOk) ≤ 1 ∧
    (∀ i call r, m.log[i]? = some (call, .ok r) → i = 0 ∧ pending.InTime call.before ∧ pending.InTime call.after) ∧
    (m.log ≠ [] → m.shared.used = true ∧ m.shared.key = []) ∧
    (∀ i call result, m.log[i]? = some (call, result) → 0 < i → ∃ e, result = .error e) ∧
    ∀ call e, (call, .error e) ∈ m.log → e = .app responseFailure := by
  have hu := (fresh_of_create hp).unused
  have hspent : m.log ≠ [] → m.shared = pending.spent := by
    refine hm.settled (fun call => ?_) (verifySection_keeps_spent pending)
    rw [verifySection_run, verify_eq, if_neg (by simp [hu])]
  have hkey : m.log ≠ [] → m.shared.used = true ∧ m.shared.key = [] := by
    intro h
    rw [hspent h]
    exact ⟨rfl, rfl⟩
  rcases log_of_reaches hu hm with hl | ⟨first, calls, hl⟩
  · simp [hl]
  · have hrest : (calls.map fun call => (call, responseFail (α := VerifiedResponse))).countP (fun entry => entry.2.isOk) = 0 := by
      simp [List.countP_eq_zero, responseFail, Except.isOk, Except.toBool]
    refine ⟨?_, ?_, hkey, ?_, ?_⟩
    · rw [hl, List.countP_cons, hrest]
      split <;> simp
    · intro i call r h
      rw [hl] at h
      cases i with
      | zero =>
        simp only [List.getElem?_cons_zero, Option.some.injEq, Prod.mk.injEq] at h
        obtain ⟨rfl, h⟩ := h
        obtain ⟨_, _, _, _, hb, _, _, _, _, _, _, _, ha, _⟩ := authenticate_ok_iff.mp h
        exact ⟨rfl, hb, ha⟩
      | succ i => simp [responseFail] at h
    · intro i call result h hi
      obtain ⟨i, rfl⟩ := Nat.exists_eq_succ_of_ne_zero hi.ne'
      simp only [hl, List.getElem?_cons_succ, List.getElem?_map, Option.map_eq_some_iff, Prod.mk.injEq] at h
      obtain ⟨_, _, _, rfl⟩ := h
      exact ⟨_, rfl⟩
    · intro call e h
      rw [hl] at h
      rcases List.mem_cons.mp h with h | h
      · simp only [Prod.mk.injEq] at h
        exact (authenticate_spec pending pending.key first).of_error h.2.symm
      · obtain ⟨c, _, hc⟩ := List.mem_map.mp h
        simp only [responseFail, Prod.mk.injEq, Except.error.injEq] at hc
        exact hc.2.symm

end

/-- A response that is delivered twice is accepted once. -/
theorem pendingResponse_history_twice :
    let _ := Interp.ascii
    let _ := Crypto.zeroDigest
    ∃ pending m call r,
      create calleePeer emptyMessage (.finite 30) (3 : UInt8) (List.replicate 32 7) (.ok (.finite 0)) = .ok pending ∧
      Monitor.Reaches verifySection (.start pending) m ∧ m.log = [(call, .ok r), (call, responseFail)] ∧
      pending.InTime call.before ∧ pending.InTime call.after ∧ m.shared.used = true ∧ m.shared.key = [] := by
  intro _ _
  obtain ⟨pending, raw, r, hcreate, hv⟩ := exists_accepted
  have hu := (fresh_of_create hcreate).unused
  have hm := Monitor.reaches_serial verifySection pending
    [{ status := .int 200, raw, before := some (.finite 1), after := some (.finite 1) },
      { status := .int 200, raw, before := some (.finite 1), after := some (.finite 1) }]
  rw [serial_verify hu] at hm
  rw [verify_eq, if_neg (by simp [hu])] at hv
  change pending.authenticate pending.key _ = .ok r at hv
  simp only [hv] at hm
  obtain ⟨_, hin, hspent, _⟩ := pendingResponse_history hcreate hm
  obtain ⟨_, hbefore, hafter⟩ := hin 0 _ r rfl
  obtain ⟨hused, hkey⟩ := hspent (by simp)
  exact ⟨pending, _, _, r, hcreate, hm, rfl, hbefore, hafter, hused, hkey⟩

end PendingResponse

end Ca2a
