/-
Lists whose items name their predecessor by its hash.

`Rooted` reads such a list from its last item back to its root, which names
nothing. Where the hash tells items apart, the last item determines the whole
list (`Rooted.forall₂`), and so no hash occurs twice in one (`Rooted.nodup`).
-/
import Mathlib

namespace HashChain

variable {ρ η : Type} {hash : ρ → η} {link : ρ → Option η} {r r' : ρ} {l l' : List ρ}

/-- From the last item, each names the hash of the one before it, and the root names none. -/
inductive Rooted (hash : ρ → η) (link : ρ → Option η) : List ρ → Prop
  | root {r : ρ} : link r = none → Rooted hash link [r]
  | step {r p : ρ} {l : List ρ} : link r = some (hash p) → Rooted hash link (p :: l) → Rooted hash link (r :: p :: l)

/-- Items that each name the next, down to a root. -/
theorem Rooted.of_isChain (hne : l ≠ []) (hroot : ∀ r ∈ l.getLast?, link r = none)
    (h : l.IsChain fun r p => link r = some (hash p)) : Rooted hash link l := by
  induction l with
  | nil => exact absurd rfl hne
  | cons r l ih =>
    cases l with
    | nil => exact .root (hroot r rfl)
    | cons p l =>
      rw [List.isChain_cons_cons] at h
      exact .step h.1 (ih (by simp) (by simpa using hroot) h.2)

/-- Any item with what comes before it. -/
theorem Rooted.suffix {s : List ρ} (h : Rooted hash link (s ++ r :: l)) : Rooted hash link (r :: l) := by
  induction s with
  | nil => exact h
  | cons a s ih =>
    cases s with
    | nil =>
      cases h with
      | step _ rest => exact rest
    | cons b s =>
      cases h with
      | step _ rest => exact ih rest

/-- **The last item determines the list**, up to whatever relation the hash tells items apart by. -/
theorem Rooted.forall₂ {R : ρ → ρ → Prop} (hlink : ∀ a b, R a b → link a = link b) (h : Rooted hash link (r :: l))
    (h' : Rooted hash link (r' :: l')) (hhash : ∀ a ∈ l, ∀ b ∈ l', hash a = hash b → R a b) (hlast : R r r') :
    List.Forall₂ R (r :: l) (r' :: l') := by
  induction l generalizing r r' l' with
  | nil =>
    cases h with
    | root hroot =>
      cases h' with
      | root => exact .cons hlast .nil
      | step hstep _ =>
        rw [← hlink _ _ hlast, hroot] at hstep
        cases hstep
  | cons p l ih =>
    cases h with
    | step hstep rest =>
      cases h' with
      | root hroot =>
        rw [hlink _ _ hlast, hroot] at hstep
        cases hstep
      | step hstep' rest' =>
        rw [hlink _ _ hlast, hstep', Option.some.injEq] at hstep
        refine .cons hlast (ih rest rest' (fun a ha b hb => hhash a ?_ b ?_) (hhash _ ?_ _ ?_ hstep.symm))
        all_goals simp_all

/-- **No hash occurs twice**, since the items that share it would have equally many before them. -/
theorem Rooted.nodup (h : Rooted hash link l) (hhash : ∀ a ∈ l, ∀ b ∈ l, hash a = hash b → link a = link b) :
    (l.map hash).Nodup := by
  induction l with
  | nil => simp
  | cons r l ih =>
    refine List.nodup_cons.mpr ⟨fun hmem => ?_, ?_⟩
    · obtain ⟨q, hq, heq⟩ := List.mem_map.mp hmem
      obtain ⟨s, t, rfl⟩ := List.append_of_mem hq
      have hqt : Rooted hash link (q :: t) := (show Rooted hash link (r :: s ++ q :: t) from h).suffix
      have hsame := h.forall₂ (R := fun a b => link a = link b) (fun _ _ hab => hab) hqt
        (fun a ha b hb => hhash a (by simp_all) b (by simp_all)) (hhash r (by simp) q (by simp) heq.symm)
      have hlen := hsame.length_eq
      simp at hlen
      omega
    · cases h with
      | root => simp
      | step _ rest => exact ih rest fun a ha b hb => hhash a (List.mem_cons_of_mem _ ha) b (List.mem_cons_of_mem _ hb)

end HashChain
