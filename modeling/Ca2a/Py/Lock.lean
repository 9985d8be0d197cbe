/-
An object whose methods run under one lock, called from many threads.

The body of a method is a `Section`: atomic steps that read and update the
object, then a result. A thread calls, waits, takes the lock when it is free
and runs the steps of its body one at a time; other threads may call in
between but not enter. Whatever the interleaving, the calls that finished
did so as if made one after another, in the order in which they took the
lock (`serializable`).
-/
import Mathlib

namespace Py

variable {σ κ ρ : Type}

/-- The guarded body of a method over the object `σ`, with results in `ρ`. -/
inductive Section (σ ρ : Type)
  | done (result : ρ)
  | step (update : σ → σ) (next : σ → Section σ ρ)

/-- The body run without interruption. -/
def Section.run : Section σ ρ → σ → ρ × σ
  | .done r, s => (r, s)
  | .step update next, s => run (next s) (update s)

/-- No step of the body takes the object out of `P`. -/
def Section.Keeps (P : σ → Prop) : Section σ ρ → Prop
  | .done _ => True
  | .step update next => ∀ s, P s → P (update s) ∧ (next s).Keeps P

/-- The calls made one after another: each with its result, and the object they leave. -/
def serial (body : κ → Section σ ρ) (s : σ) : List κ → List (κ × ρ) × σ
  | [] => ([], s)
  | c :: cs =>
    let first := (body c).run s
    let rest := serial body first.2 cs
    ((c, first.1) :: rest.1, rest.2)

theorem serial_snoc (body : κ → Section σ ρ) (s : σ) (cs : List κ) (c : κ) :
    serial body s (cs ++ [c]) =
      ((serial body s cs).1 ++ [(c, ((body c).run (serial body s cs).2).1)], ((body c).run (serial body s cs).2).2) := by
  induction cs generalizing s with
  | nil => rfl
  | cons d cs ih => simp [serial, ih]

/-- The object, the calls that wait for its lock, the one that has it with the steps it still has
to run, and the calls that finished. -/
structure Monitor (σ κ ρ : Type) where
  shared : σ
  waiting : List κ
  holder : Option (κ × Section σ ρ)
  log : List (κ × ρ)

namespace Monitor

def start (s : σ) : Monitor σ κ ρ := { shared := s, waiting := [], holder := none, log := [] }

/-- One step of one thread. -/
inductive Step (body : κ → Section σ ρ) : Monitor σ κ ρ → Monitor σ κ ρ → Prop
  | call (m : Monitor σ κ ρ) (c : κ) : Step body m { m with waiting := m.waiting ++ [c] }
  | acquire (m : Monitor σ κ ρ) (before after : List κ) (c : κ) (hw : m.waiting = before ++ c :: after)
      (hfree : m.holder = none) : Step body m { m with waiting := before ++ after, holder := some (c, body c) }
  | advance (m : Monitor σ κ ρ) (c : κ) (update : σ → σ) (next : σ → Section σ ρ)
      (hh : m.holder = some (c, .step update next)) :
      Step body m { m with shared := update m.shared, holder := some (c, next m.shared) }
  | release (m : Monitor σ κ ρ) (c : κ) (r : ρ) (hh : m.holder = some (c, .done r)) :
      Step body m { m with holder := none, log := m.log ++ [(c, r)] }

/-- What a run of steps reaches. -/
def Reaches (body : κ → Section σ ρ) : Monitor σ κ ρ → Monitor σ κ ρ → Prop := Relation.ReflTransGen (Step body)

/-- The log is that of a serial run, and the call inside will end as if it had begun there. -/
def Serialized (body : κ → Section σ ρ) (s : σ) (m : Monitor σ κ ρ) : Prop :=
  (serial body s (m.log.map (·.1))).1 = m.log ∧
  match m.holder with
  | none => m.shared = (serial body s (m.log.map (·.1))).2
  | some (c, rest) => rest.run m.shared = (body c).run (serial body s (m.log.map (·.1))).2

theorem Serialized.step {body : κ → Section σ ρ} {s : σ} {m m' : Monitor σ κ ρ} (hs : Step body m m')
    (h : Serialized body s m) : Serialized body s m' := by
  obtain ⟨hlog, hin⟩ := h
  cases hs with
  | call c => exact ⟨hlog, hin⟩
  | acquire before after c hw hfree =>
    simp only [hfree] at hin
    exact ⟨hlog, by simp only [hin]⟩
  | advance c update next hh =>
    simp only [hh] at hin
    exact ⟨hlog, hin⟩
  | release c r hh =>
    simp only [hh, Section.run] at hin
    simp only [Serialized, List.map_append, List.map_cons, List.map_nil, serial_snoc, hlog, ← hin, and_self]

/-- **Every interleaving is serializable.** -/
theorem serializable {body : κ → Section σ ρ} {s : σ} {m : Monitor σ κ ρ} (h : Reaches body (start s) m) :
    Serialized body s m := by
  induction h with
  | refl => exact ⟨rfl, rfl⟩
  | tail _ hs ih => exact ih.step hs

theorem Reaches.settledAt {body : κ → Section σ ρ} {s : σ} {m : Monitor σ κ ρ} {P : σ → Prop}
    (hfirst : ∀ c, P ((body c).run s).2) (hkeep : ∀ c, (body c).Keeps P) (h : Reaches body (start s) m)
    (hlog : m.log ≠ []) : P m.shared ∧ ∀ c rest, m.holder = some (c, rest) → rest.Keeps P := by
  induction h with
  | refl => exact absurd rfl hlog
  | @tail m m' hm hs ih =>
    cases hs with
    | call c => exact ih hlog
    | acquire before after c hw hfree =>
      refine ⟨(ih hlog).1, ?_⟩
      rintro c' rest ⟨⟩
      exact hkeep _
    | advance c update next hh =>
      obtain ⟨hP, hrest⟩ := ih hlog
      obtain ⟨hu, hn⟩ := hrest c _ hh _ hP
      refine ⟨hu, ?_⟩
      rintro c' rest ⟨⟩
      exact hn
    | release c r hh =>
      refine ⟨?_, by rintro c' rest ⟨⟩⟩
      by_cases hl : m.log = []
      · -- the first call to finish ran from the start
        have hin := (serializable hm).2
        simp only [hh, hl, Section.run, List.map_nil, serial] at hin
        have := hfirst c
        rw [← hin] at this
        exact this
      · exact (ih hl).1

/-- The call inside can run to its end. -/
theorem reaches_end {body : κ → Section σ ρ} {c : κ} {rest : Section σ ρ} {m : Monitor σ κ ρ}
    (hh : m.holder = some (c, rest)) :
    Reaches body m { m with
      shared := (rest.run m.shared).2
      holder := none
      log := m.log ++ [(c, (rest.run m.shared).1)] } := by
  induction rest generalizing m with
  | done r => exact .single (.release m c r hh)
  | step update next ih => exact .head (.advance m c update next hh) (ih m.shared rfl)

/-- Calls made one after another are one of the interleavings. -/
theorem reaches_serial (body : κ → Section σ ρ) (s : σ) (cs : List κ) :
    Reaches body (start s)
      { shared := (serial body s cs).2, waiting := [], holder := none, log := (serial body s cs).1 } := by
  induction cs using List.reverseRecOn with
  | nil => exact .refl
  | append_singleton cs c ih =>
    rw [serial_snoc]
    refine ih.trans (.head (.call _ c) (.head (.acquire _ [] [] c rfl rfl) ?_))
    exact reaches_end rfl

/-- What every call establishes from the start, and keeps, holds from the first call that
finished on. -/
theorem Reaches.settled {body : κ → Section σ ρ} {s : σ} {m : Monitor σ κ ρ} {P : σ → Prop}
    (hfirst : ∀ c, P ((body c).run s).2) (hkeep : ∀ c, (body c).Keeps P) (h : Reaches body (start s) m)
    (hlog : m.log ≠ []) : P m.shared :=
  (h.settledAt hfirst hkeep hlog).1

end Monitor

end Py
