/-
Computations that record which of their named steps start and which return.

A step that raises is recorded as started and the computation ends, so in
any trace a step starts only after every step before it has returned. The
result does not depend on the record (`bind_result`).
-/
import Ca2a.Py.Except

namespace Py

/-- What is recorded of a step. -/
inductive Event (σ : Type)
  | started (s : σ)
  | returned (s : σ)
  deriving DecidableEq

/-- The record of a run, and what it returned or raised. -/
structure Traced (σ ε α : Type) where
  trace : List (Event σ)
  result : Except ε α

namespace Traced
variable {σ ε α β : Type}

instance : Monad (Traced σ ε) where
  pure a := ⟨[], .ok a⟩
  bind x f :=
    match x.result with
    | .error e => ⟨x.trace, .error e⟩
    | .ok a => ⟨x.trace ++ (f a).trace, (f a).result⟩

/-- A named step. -/
def step (s : σ) (x : Except ε α) : Traced σ ε α :=
  match x with
  | .error e => ⟨[.started s], .error e⟩
  | .ok a => ⟨[.started s, .returned s], .ok a⟩

/-- A computation that is not worth a name. -/
def lift (x : Except ε α) : Traced σ ε α := ⟨[], x⟩

@[simp] theorem pure_result (a : α) : (pure a : Traced σ ε α).result = .ok a := rfl

@[simp] theorem pure_trace (a : α) : (pure a : Traced σ ε α).trace = [] := rfl

@[simp] theorem lift_result (x : Except ε α) : (lift x : Traced σ ε α).result = x := rfl

@[simp] theorem step_result (s : σ) (x : Except ε α) : (step s x).result = x := by cases x <;> rfl

@[simp] theorem bind_result (x : Traced σ ε α) (f : α → Traced σ ε β) :
    (x >>= f).result = x.result >>= fun a => (f a).result := by
  obtain ⟨t, r⟩ := x
  cases r <;> rfl

/-- `except … as exc: raise … from exc`: the errors of a run, each as it leaves the handler. -/
def mapError {ε' : Type} (f : ε → ε') (x : Traced σ ε α) : Traced σ ε' α := ⟨x.trace, x.result.mapError f⟩

@[simp] theorem mapError_result {ε' : Type} (f : ε → ε') (x : Traced σ ε α) :
    (x.mapError f).result = x.result.mapError f := rfl

@[simp] theorem mapError_trace {ε' : Type} (f : ε → ε') (x : Traced σ ε α) : (x.mapError f).trace = x.trace := rfl

/-- `try: x; except …: handler; else: next`. `handler` answers the errors it takes. -/
def tryElse (x : Traced σ ε α) (handler : ε → Option (Traced σ ε β)) (next : α → Traced σ ε β) : Traced σ ε β :=
  match x.result with
  | .ok a => ⟨x.trace ++ (next a).trace, (next a).result⟩
  | .error e =>
    match handler e with
    | some y => ⟨x.trace ++ y.trace, y.result⟩
    | none => ⟨x.trace, .error e⟩

theorem tryElse_of_ok {x : Traced σ ε α} {a : α} (h : x.result = .ok a) (handler : ε → Option (Traced σ ε β))
    (next : α → Traced σ ε β) : x.tryElse handler next = ⟨x.trace ++ (next a).trace, (next a).result⟩ := by
  rw [tryElse, h]

theorem tryElse_of_error {x : Traced σ ε α} {e : ε} (h : x.result = .error e) {handler : ε → Option (Traced σ ε β)}
    {y : Traced σ ε β} (hy : handler e = some y) (next : α → Traced σ ε β) :
    x.tryElse handler next = ⟨x.trace ++ y.trace, y.result⟩ := by
  simp only [tryElse, h, hy]

theorem bind_assoc {γ : Type} (x : Traced σ ε α) (f : α → Traced σ ε β) (g : β → Traced σ ε γ) :
    x >>= f >>= g = x >>= fun a => f a >>= g := by
  obtain ⟨t, r⟩ := x
  cases r with
  | error e => rfl
  | ok a =>
    simp only [bind]
    cases (f a).result with
    | error e => rfl
    | ok b => simp

/-- What a run records: what its first part does and, if that returns, what the rest does. -/
theorem mem_trace_bind {x : Traced σ ε α} {f : α → Traced σ ε β} {e : Event σ} :
    e ∈ (x >>= f).trace ↔ e ∈ x.trace ∨ ∃ a, x.result = .ok a ∧ e ∈ (f a).trace := by
  obtain ⟨t, r⟩ := x
  cases r <;> simp [bind]

/-- Whatever is counted of the parts bounds what is counted of the run. -/
theorem countP_trace_bind_le {p : Event σ → Bool} {x : Traced σ ε α} {f : α → Traced σ ε β} {n m : Nat}
    (hx : x.trace.countP p ≤ n) (hf : ∀ a, (f a).trace.countP p ≤ m) : (x >>= f).trace.countP p ≤ n + m := by
  obtain ⟨t, r⟩ := x
  cases r with
  | error e => exact le_trans hx (by omega)
  | ok a =>
    have h := hf a
    simp only [bind, List.countP_append]
    simp only at hx
    omega

@[simp] theorem lift_trace (x : Except ε α) : (lift x : Traced σ ε α).trace = [] := rfl

/-- A step starts and, if it returns, returns. -/
theorem mem_step_trace {s : σ} {x : Except ε α} {e : Event σ} (h : e ∈ (step s x).trace) :
    e = .started s ∨ e = .returned s := by
  cases x <;> simp_all [step]

/-- A run that raises does not go on. -/
theorem bind_of_error {x : Traced σ ε α} {e : ε} (h : x.result = .error e) (f : α → Traced σ ε β) :
    x >>= f = ⟨x.trace, .error e⟩ := by
  obtain ⟨t, r⟩ := x
  cases h
  rfl

theorem pure_bind (a : α) (f : α → Traced σ ε β) : (pure a : Traced σ ε α) >>= f = f a := rfl

/-- What a step contributes, and what comes after it if it returned. -/
theorem step_bind (s : σ) (x : Except ε α) (f : α → Traced σ ε β) :
    step s x >>= f =
      match x with
      | .error e => ⟨[.started s], .error e⟩
      | .ok a => ⟨.started s :: .returned s :: (f a).trace, (f a).result⟩ := by
  cases x <;> rfl

theorem lift_bind (x : Except ε α) (f : α → Traced σ ε β) :
    lift x >>= f =
      match x with
      | .error e => ⟨[], .error e⟩
      | .ok a => f a := by
  cases x <;> rfl

/-- A step that a run starts after a first step: the first one returned, and the rest started it. -/
theorem started_of_step_bind {s s' : σ} (hne : s ≠ s') {x : Except ε α} {f : α → Traced σ ε β} {pre post : List (Event σ)}
    (h : (step s x >>= f).trace = pre ++ .started s' :: post) :
    ∃ a pre', x = .ok a ∧ pre = .started s :: .returned s :: pre' ∧ (f a).trace = pre' ++ .started s' :: post := by
  rw [step_bind] at h
  cases x with
  | error e =>
    simp only at h
    cases pre with
    | nil => simp_all
    | cons e pre => simp_all
  | ok a =>
    simp only at h
    cases pre with
    | nil => simp_all
    | cons e₁ pre =>
      cases pre with
      | nil => simp_all
      | cons e₂ pre =>
        simp only [List.cons_append, List.cons.injEq] at h
        obtain ⟨rfl, rfl, h⟩ := h
        exact ⟨a, pre, rfl, rfl, h⟩

end Traced

end Py
