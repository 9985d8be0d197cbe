/-
Programs side by side over one host.

A program is a result, or a call and what follows each reply to it. The host
answers one call at a time, of whichever program, and may change by itself in
between. A program is proved alone, against what its calls do to the part of
the host that it holds (`Prog.Meets`); `Discipline.Kept` is what the host must
keep between the holders for that to be enough (`Discipline.Kept.run`). Where it
matters which program was answered what, a run is taken with its answers
(`Host.Trace`), and what a program holds may speak of its own.
-/
import Mathlib.Logic.Function.Basic
import Mathlib.Logic.Relation

namespace Py

/-- A program that makes calls and returns. -/
inductive Prog (Call : Type) (Reply : Call → Type) (α : Type) : Type
  | ret (a : α)
  | call (c : Call) (next : Reply c → Prog Call Reply α)

/-- How a host in some state answers a call, and how it changes by itself. -/
structure Host (σ Call : Type) (Reply : Call → Type) where
  serves : σ → (c : Call) → Reply c → σ → Prop
  other : σ → σ → Prop

/-- What a holder of `o` may call, and what it holds after the reply. -/
structure Discipline (ο Call : Type) (Reply : Call → Type) where
  may : ο → Call → Prop
  effect : ο → (c : Call) → Reply c → ο → Prop

section
variable {σ ο ι Call α β : Type} {Reply : Call → Type}

namespace Prog

/-- A program, and then another on its result. -/
def andThen : Prog Call Reply α → (α → Prog Call Reply β) → Prog Call Reply β
  | .ret a, f => f a
  | .call c next, f => .call c fun r => (next r).andThen f

/-- The program, started with `o`, makes only calls it may make, and returns only what the postcondition allows. -/
def Meets (d : Discipline ο Call Reply) (post : α → ο → Prop) : Prog Call Reply α → ο → Prop
  | .ret a, o => post a o
  | .call c next, o => d.may o c ∧ ∀ r o', d.effect o c r o' → (next r).Meets d post o'

/-- **The rule for sequences.** -/
theorem Meets.andThen {d : Discipline ο Call Reply} {post : β → ο → Prop} {f : α → Prog Call Reply β}
    {p : Prog Call Reply α} {o : ο} (h : p.Meets d (fun a o' => (f a).Meets d post o') o) :
    (p.andThen f).Meets d post o := by
  induction p generalizing o with
  | ret a => exact h
  | call c next ih =>
    obtain ⟨hmay, hnext⟩ := h
    exact ⟨hmay, fun r o' heffect => ih r (hnext r o' heffect)⟩

/-- **The rule of consequence.** -/
theorem Meets.mono {d : Discipline ο Call Reply} {post post' : α → ο → Prop} {p : Prog Call Reply α} {o : ο}
    (h : p.Meets d post o) (himp : ∀ a o', post a o' → post' a o') : p.Meets d post' o := by
  induction p generalizing o with
  | ret a => exact himp a o h
  | call c next ih =>
    obtain ⟨hmay, hnext⟩ := h
    exact ⟨hmay, fun r o' heffect => ih r (hnext r o' heffect)⟩

end Prog

/-! ## Runs -/

/-- One step: the host answers a call of one program, or changes by itself. -/
inductive Host.Step [DecidableEq ι] (host : Host σ Call Reply) :
    σ × (ι → Prog Call Reply α) → σ × (ι → Prog Call Reply α) → Prop
  | call {s s' : σ} {progs : ι → Prog Call Reply α} {i : ι} {c : Call} {next : Reply c → Prog Call Reply α} {r : Reply c}
      (at_call : progs i = .call c next) (served : host.serves s c r s') :
      host.Step (s, progs) (s', Function.update progs i (next r))
  | other {s s' : σ} {progs : ι → Prog Call Reply α} (changed : host.other s s') : host.Step (s, progs) (s', progs)

/-- A run: steps in any order. -/
def Host.Run [DecidableEq ι] (host : Host σ Call Reply) :
    σ × (ι → Prog Call Reply α) → σ × (ι → Prog Call Reply α) → Prop :=
  Relation.ReflTransGen host.Step

/-- A call and the reply to it. -/
structure Answer (Call : Type) (Reply : Call → Type) where
  call : Call
  reply : Reply call

/-- A run, with what each program was answered in it, the latest answer first. -/
inductive Host.Trace [DecidableEq ι] (host : Host σ Call Reply) (before : σ × (ι → Prog Call Reply α)) :
    (ι → List (Answer Call Reply)) → σ × (ι → Prog Call Reply α) → Prop
  | start : host.Trace before (fun _ => []) before
  | call {s s' : σ} {progs : ι → Prog Call Reply α} {log : ι → List (Answer Call Reply)} {i : ι} {c : Call}
      {next : Reply c → Prog Call Reply α} {r : Reply c} (earlier : host.Trace before log (s, progs))
      (at_call : progs i = .call c next) (served : host.serves s c r s') :
      host.Trace before (Function.update log i (⟨c, r⟩ :: log i)) (s', Function.update progs i (next r))
  | other {s s' : σ} {progs : ι → Prog Call Reply α} {log : ι → List (Answer Call Reply)}
      (earlier : host.Trace before log (s, progs)) (changed : host.other s s') : host.Trace before log (s', progs)

/-- The relation between the host and what is held, that calls allowed by the discipline keep, and the host itself. -/
structure Discipline.Kept [DecidableEq ι] (d : Discipline ο Call Reply) (host : Host σ Call Reply)
    (inv : σ → (ι → ο) → Prop) : Prop where
  call : ∀ s held i c r s', inv s held → d.may (held i) c → host.serves s c r s' →
    ∃ o, d.effect (held i) c r o ∧ inv s' (Function.update held i o)
  other : ∀ s held s', inv s held → host.other s s' → inv s' held

variable [DecidableEq ι] {d : Discipline ο Call Reply} {host : Host σ Call Reply} {inv : σ → (ι → ο) → Prop}

/-- A program that has returned stays as it is. -/
theorem Host.Run.returned {before after : σ × (ι → Prog Call Reply α)} (hrun : host.Run before after) {i : ι} {a : α}
    (h : before.2 i = .ret a) : after.2 i = .ret a := by
  induction hrun with
  | refl => exact h
  | tail _ hstep ih =>
    cases hstep with
    | other changed => exact ih
    | @call s s' progs j c next r at_call served =>
      have hij : i ≠ j := by
        intro hij
        cases (hij ▸ at_call).symm.trans ih
      simpa [Function.update_of_ne hij] using ih

/-- Every run has its answers. -/
theorem Host.Run.exists_trace {before after : σ × (ι → Prog Call Reply α)} (hrun : host.Run before after) :
    ∃ log, host.Trace before log after := by
  induction hrun with
  | refl => exact ⟨_, .start⟩
  | tail _ hstep ih =>
    obtain ⟨log, htrace⟩ := ih
    cases hstep with
    | call at_call served => exact ⟨_, htrace.call at_call served⟩
    | other changed => exact ⟨log, htrace.other changed⟩

/-- The run behind the answers. -/
theorem Host.Trace.run {before after : σ × (ι → Prog Call Reply α)} {log : ι → List (Answer Call Reply)}
    (htrace : host.Trace before log after) : host.Run before after := by
  induction htrace with
  | start => exact .refl
  | call _ at_call served ih => exact ih.tail (.call at_call served)
  | other _ changed ih => exact ih.tail (.other changed)

/-- **One call**: what is held goes on to be enough for what each program has left to do. -/
theorem Discipline.Kept.answered (h : d.Kept host inv) {post : ι → α → ο → Prop} {s s' : σ}
    {progs : ι → Prog Call Reply α} {i : ι} {c : Call} {next : Reply c → Prog Call Reply α} {r : Reply c}
    (at_call : progs i = .call c next) (served : host.serves s c r s') {held : ι → ο} (hinv : inv s held)
    (hmeets : ∀ j, (progs j).Meets d (post j) (held j)) :
    ∃ o, d.may (held i) c ∧ d.effect (held i) c r o ∧ inv s' (Function.update held i o) ∧
      ∀ j, (Function.update progs i (next r) j).Meets d (post j) (Function.update held i o j) := by
  have hcall := hmeets i
  simp only [at_call] at hcall
  obtain ⟨hmay, hnext⟩ := hcall
  obtain ⟨o, heffect, hinv'⟩ := h.call _ _ i c r _ hinv hmay served
  refine ⟨o, hmay, heffect, hinv', fun j => ?_⟩
  by_cases hij : j = i
  · subst hij
    simpa using hnext r o heffect
  · simpa [Function.update_of_ne hij] using hmeets j

/-- **Every run, with its answers**: programs that meet their postconditions alone meet them side by side, and what each
holds tells what it was answered. -/
theorem Discipline.Kept.trace (h : d.Kept host inv) (tells : ο → List (Answer Call Reply) → Prop)
    (htells : ∀ o c r o' l, tells o l → d.may o c → d.effect o c r o' → tells o' (⟨c, r⟩ :: l))
    {post : ι → α → ο → Prop} {before after : σ × (ι → Prog Call Reply α)} {log : ι → List (Answer Call Reply)}
    (htrace : host.Trace before log after) {held : ι → ο} (hinv : inv before.1 held) (hstart : ∀ i, tells (held i) [])
    (hmeets : ∀ i, (before.2 i).Meets d (post i) (held i)) :
    ∃ held', inv after.1 held' ∧ (∀ i, (after.2 i).Meets d (post i) (held' i)) ∧ ∀ i, tells (held' i) (log i) := by
  induction htrace with
  | start => exact ⟨held, hinv, hmeets, hstart⟩
  | other _ changed ih =>
    obtain ⟨held', hinv', hmeets', htold⟩ := ih
    exact ⟨held', h.other _ _ _ hinv' changed, hmeets', htold⟩
  | @call s s' progs log i c next r _ at_call served ih =>
    obtain ⟨held', hinv', hmeets', htold⟩ := ih
    obtain ⟨o, hmay, heffect, hinv'', hmeets''⟩ := h.answered at_call served hinv' hmeets'
    refine ⟨_, hinv'', hmeets'', fun j => ?_⟩
    by_cases hij : j = i
    · subst hij
      simpa using htells _ c r o _ (htold j) hmay heffect
    · simpa [Function.update_of_ne hij] using htold j

/-- **Every run**: programs that meet their postconditions alone meet them side by side. -/
theorem Discipline.Kept.run (h : d.Kept host inv) {post : ι → α → ο → Prop}
    {before after : σ × (ι → Prog Call Reply α)} (hrun : host.Run before after) {held : ι → ο}
    (hinv : inv before.1 held) (hmeets : ∀ i, (before.2 i).Meets d (post i) (held i)) :
    ∃ held', inv after.1 held' ∧ ∀ i, (after.2 i).Meets d (post i) (held' i) := by
  obtain ⟨log, htrace⟩ := hrun.exists_trace
  obtain ⟨held', hinv', hmeets', _⟩ := h.trace (fun _ _ => True) (fun _ _ _ _ _ _ _ _ => trivial) htrace hinv
    (fun _ => trivial) hmeets
  exact ⟨held', hinv', hmeets'⟩

/-! ## Two programs -/

/-- Two programs. -/
def sideBySide (p q : Prog Call Reply α) : Bool → Prog Call Reply α := fun b => bif b then p else q

theorem run_left {s : σ} {c : Call} {next : Reply c → Prog Call Reply α} {q : Prog Call Reply α}
    {final : σ × (Bool → Prog Call Reply α)} (s' : σ) (r : Reply c) (h : host.serves s c r s')
    (hrest : host.Run (s', sideBySide (next r) q) final) : host.Run (s, sideBySide (.call c next) q) final := by
  have hstep : host.Step (s, sideBySide (.call c next) q)
      (s', Function.update (sideBySide (.call c next) q) true (next r)) := .call rfl h
  have hnext : Function.update (sideBySide (.call c next) q) true (next r) = sideBySide (next r) q := by
    funext b
    cases b <;> rfl
  exact .head (hnext ▸ hstep) hrest

theorem run_right {s : σ} {c : Call} {next : Reply c → Prog Call Reply α} {p : Prog Call Reply α}
    {final : σ × (Bool → Prog Call Reply α)} (s' : σ) (r : Reply c) (h : host.serves s c r s')
    (hrest : host.Run (s', sideBySide p (next r)) final) : host.Run (s, sideBySide p (.call c next)) final := by
  have hstep : host.Step (s, sideBySide p (.call c next))
      (s', Function.update (sideBySide p (.call c next)) false (next r)) := .call rfl h
  have hnext : Function.update (sideBySide p (.call c next)) false (next r) = sideBySide p (next r) := by
    funext b
    cases b <;> rfl
  exact .head (hnext ▸ hstep) hrest

end

end Py
