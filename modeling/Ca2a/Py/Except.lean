/-
Computations that may raise: a chain of them returns exactly when each of
them does, and so does a loop over a list. `Spec` says what a computation may
return and what it may raise, with a rule for each way of building one.
-/
import Mathlib

namespace Py

variable {ε α β : Type}

theorem bind_ok_iff {x : Except ε α} {f : α → Except ε β} {b : β} :
    (x >>= f) = .ok b ↔ ∃ a, x = .ok a ∧ f a = .ok b := by
  cases x <;> simp [bind, Except.bind]

/-- The first of two steps returns nothing. -/
theorem bind_unit_ok_iff {x : Except ε Unit} {f : Unit → Except ε β} {b : β} :
    (x >>= f) = .ok b ↔ x = .ok () ∧ f () = .ok b := by
  cases x <;> simp [bind, Except.bind]

theorem bind_error_iff {x : Except ε α} {f : α → Except ε β} {e : ε} :
    (x >>= f) = .error e ↔ x = .error e ∨ ∃ a, x = .ok a ∧ f a = .error e := by
  cases x <;> simp [bind, Except.bind]

@[simp] theorem mapError_ok_iff {ε' : Type} {x : Except ε α} {f : ε → ε'} {a : α} : x.mapError f = .ok a ↔ x = .ok a := by
  cases x <;> simp [Except.mapError]

theorem map_ok_iff {x : Except ε α} {f : α → β} {b : β} : x.map f = .ok b ↔ ∃ a, x = .ok a ∧ f a = b := by
  cases x <;> simp [Except.map]

theorem exists_of_isOk {x : Except ε α} (h : x.isOk = true) : ∃ a, x = .ok a := by
  cases x with
  | ok a => exact ⟨a, rfl⟩
  | error e => cases h

@[simp] theorem ok_bind (a : α) (f : α → Except ε β) : ((.ok a : Except ε α) >>= f) = f a := rfl

@[simp] theorem error_bind (e : ε) (f : α → Except ε β) : ((.error e : Except ε α) >>= f) = .error e := rfl

theorem mapM_ok {f : α → Except ε β} {g : α → β} {l : List α} (h : ∀ a ∈ l, f a = .ok (g a)) :
    l.mapM f = .ok (l.map g) := by
  induction l with
  | nil => rfl
  | cons a l ih =>
    rw [List.mapM_cons, h a (by simp), ih fun b hb => h b (by simp [hb])]
    rfl

theorem mapM_ok_iff {f : α → Except ε β} {l : List α} {r : List β} :
    l.mapM f = .ok r ↔ List.Forall₂ (fun a b => f a = .ok b) l r := by
  induction l generalizing r with
  | nil => cases r <;> simp [pure, Except.pure]
  | cons a l ih =>
    simp only [List.mapM_cons, bind_ok_iff, List.forall₂_cons_left_iff, ← ih, pure, Except.pure, Except.ok.injEq]
    constructor
    · rintro ⟨b, hb, bs, hbs, rfl⟩
      exact ⟨b, bs, hb, hbs, rfl⟩
    · rintro ⟨b, bs, hb, hbs, rfl⟩
      exact ⟨b, hb, bs, hbs, rfl⟩

theorem forall₂_mem_left {R : α → β → Prop} {l : List α} {r : List β} (h : List.Forall₂ R l r) {a : α}
    (ha : a ∈ l) : ∃ b ∈ r, R a b := by
  induction h with
  | nil => simp at ha
  | cons hab _ ih =>
    rcases List.mem_cons.mp ha with rfl | ha
    · exact ⟨_, by simp, hab⟩
    · obtain ⟨b, hb, hr⟩ := ih ha
      exact ⟨b, by simp [hb], hr⟩

/-! ## What may be returned and raised -/

/-- Whatever the computation returns satisfies `post`, whatever it raises `exc`. -/
def Spec (x : Except ε α) (post : α → Prop) (exc : ε → Prop) : Prop :=
  match x with
  | .ok a => post a
  | .error e => exc e

section
variable {post : α → Prop} {post' : β → Prop} {exc : ε → Prop} {x : Except ε α}

@[simp] theorem spec_ok {a : α} : Spec (.ok a) post exc ↔ post a := Iff.rfl

@[simp] theorem spec_error {e : ε} : Spec (.error e) post exc ↔ exc e := Iff.rfl

theorem Spec.of_ok (h : Spec x post exc) {a : α} (hx : x = .ok a) : post a := by
  subst hx
  exact h

theorem Spec.of_error (h : Spec x post exc) {e : ε} (hx : x = .error e) : exc e := by
  subst hx
  exact h

theorem Spec.mono {post₂ : α → Prop} {exc₂ : ε → Prop} (h : Spec x post exc) (hp : ∀ a, post a → post₂ a)
    (he : ∀ e, exc e → exc₂ e) : Spec x post₂ exc₂ := by
  cases x with
  | ok a => exact hp a h
  | error e => exact he e h

theorem Spec.bind {f : α → Except ε β} (h : Spec x post exc) (hf : ∀ a, post a → Spec (f a) post' exc) :
    Spec (x >>= f) post' exc := by
  cases x with
  | ok a => exact hf a h
  | error e => exact h

/-- What may be raised is raised by the first step, or by what comes after it. -/
theorem spec_bind_iff {f : α → Except ε β} :
    Spec (x >>= f) (fun _ => True) exc ↔ Spec x (fun _ => True) exc ∧ ∀ a, x = .ok a → Spec (f a) (fun _ => True) exc := by
  cases x with
  | ok a => simp
  | error e => simp

theorem spec_mapError_iff {ε' : Type} {f : ε → ε'} {exc' : ε' → Prop} :
    Spec (x.mapError f) post exc' ↔ Spec x post fun e => exc' (f e) := by
  cases x <;> exact Iff.rfl

theorem Spec.mapM {f : α → Except ε β} {l : List α} (h : ∀ a ∈ l, Spec (f a) (fun _ => True) exc) :
    Spec (l.mapM f) (fun _ => True) exc := by
  induction l with
  | nil => exact trivial
  | cons a l ih =>
    rw [List.mapM_cons]
    exact (h a (by simp)).bind fun _ _ => (ih fun b hb => h b (by simp [hb])).bind fun _ _ => trivial

end

end Py
