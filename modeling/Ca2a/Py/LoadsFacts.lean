/-
What `json.loads` may deliver and raise. A property of values that every
scalar has, that lists take from their items and that the hook gives an
object whose fields have it, holds of everything parsed; and besides what
the hook raises there are only `ValueError`s. What one hook delivers
another delivers too that makes the same of every object (`HookLe`).
-/
import Ca2a.Py.Except
import Ca2a.Py.Loads
import Ca2a.Py.TextFacts

namespace Py

variable {ε : Type} [Interp]

/-- `P` is kept by the decoder, which raises `E` only. -/
structure ScanInvariant (hook : PairsHook ε) (P : Json → Prop) (E : Raised ε → Prop) : Prop where
  scalar : ∀ j, (match j with | .arr _ | .obj _ => False | _ => True) → P j
  arr : ∀ xs, (∀ x ∈ xs, P x) → P (.arr xs)
  hook : ∀ pairs, (∀ kv ∈ pairs, P kv.2) → Spec (hook pairs) P E
  raises : ∀ k t, k.isValueError = true → E (.builtin k t)

namespace ScanInvariant
variable {hook : PairsHook ε} {P : Json → Prop} {E : Raised ε → Prop}

theorem decodeError (h : ScanInvariant hook P E) {α : Type} (post : α → Prop) :
    Spec (Py.decodeError : Except (Raised ε) α) post E :=
  h.raises _ _ rfl

theorem expect (h : ScanInvariant hook P E) (c : CodePoint) (s : Str) : Spec (expect c s) (fun _ => True) E := by
  unfold Py.expect
  split
  · split
    · exact trivial
    · exact h.decodeError _
  · exact h.decodeError _

theorem scanString (h : ScanInvariant hook P E) (s : Str) : Spec (scanString s) (fun _ => True) E := by
  unfold Py.scanString
  split
  · exact trivial
  · exact h.decodeError _

theorem finishNumber (h : ScanInvariant hook P E) (negative : Bool) (ds r : Str) :
    Spec (finishNumber negative ds r) (fun p => P p.1) E := by
  unfold Py.finishNumber
  dsimp only
  split
  · split
    · exact h.scalar _ trivial
    · exact h.decodeError _
  · exact h.scalar _ trivial

theorem scanDigits (h : ScanInvariant hook P E) (negative : Bool) (s : Str) :
    Spec (scanDigits negative s) (fun p => P p.1) E := by
  unfold Py.scanDigits
  split
  · exact h.decodeError _
  · split
    · exact h.finishNumber _ _ _
    · split
      · exact h.finishNumber _ _ _
      · exact h.decodeError _

theorem scanNumber (h : ScanInvariant hook P E) (s : Str) : Spec (scanNumber s) (fun p => P p.1) E := by
  unfold Py.scanNumber
  split
  · exact h.decodeError _
  · split
    · split
      · exact h.scalar _ trivial
      · exact h.scanDigits _ _
    · exact h.scanDigits _ _

theorem scanAtom (h : ScanInvariant hook P E) (s : Str) : Spec (scanAtom s) (fun p => P p.1) E := by
  unfold Py.scanAtom
  repeat' split
  all_goals first | exact h.scalar _ trivial | exact h.scanNumber _

/-- By induction on the fuel, for values, items and fields at once. -/
theorem scan (h : ScanInvariant hook P E) (n : Nat) :
    (∀ s, Spec (scanValue hook n s) (fun p => P p.1) E) ∧
    (∀ s, Spec (scanItems hook n s) (fun p => ∀ x ∈ p.1, P x) E) ∧
    (∀ s, Spec (scanFields hook n s) (fun p => ∀ kv ∈ p.1, P kv.2) E) := by
  induction n with
  | zero =>
    refine ⟨fun s => ?_, fun s => ?_, fun s => ?_⟩
    · rw [scanValue]; exact h.decodeError _
    · rw [scanItems]; exact h.decodeError _
    · rw [scanFields]; exact h.decodeError _
  | succ n ih =>
    obtain ⟨hvalue, hitems, hfields⟩ := ih
    refine ⟨fun s => ?_, fun s => ?_, fun s => ?_⟩
    · cases s with
      | nil => rw [scanValue]; exact h.decodeError _
      | cons c r =>
        rw [scanValue]
        split
        · exact (h.scanString _).bind fun _ _ => h.scalar _ trivial
        · split
          · split
            · exact h.arr [] (by simp)
            · exact (hitems _).bind fun p hp => h.arr p.1 hp
          · split
            · split
              · exact (h.hook [] (by simp)).bind fun _ hj => hj
              · exact (hfields _).bind fun p hp => (h.hook p.1 hp).bind fun _ hj => hj
            · exact h.scanAtom _
    · rw [scanItems]
      refine (hvalue _).bind fun ⟨x, r⟩ hp => ?_
      dsimp only
      split
      · simpa using hp
      · refine (h.expect _ _).bind fun r₁ _ => (hitems _).bind fun q hq => ?_
        exact List.forall_mem_cons.mpr ⟨hp, hq⟩
    · rw [scanFields]
      refine (h.expect _ _).bind fun r _ => (h.scanString _).bind fun k _ => (h.expect _ _).bind fun r₂ _ =>
        (hvalue _).bind fun ⟨v, r₃⟩ hp => ?_
      dsimp only
      split
      · simpa using hp
      · refine (h.expect _ _).bind fun r₄ _ => (hfields _).bind fun q hq => ?_
        exact List.forall_mem_cons.mpr ⟨hp, hq⟩

theorem loads (h : ScanInvariant hook P E) (s : Str) : Spec (loads hook s) P E := by
  unfold Py.loads
  split
  · exact h.decodeError _
  · refine ((h.scan _).1 _).bind fun ⟨j, r⟩ hp => ?_
    dsimp only
    split
    · exact hp
    · exact h.decodeError _

theorem decodeUtf8 (h : ScanInvariant hook P E) (b : Bytes) : Spec (decodeUtf8 b) (fun _ => True) E := by
  unfold Py.decodeUtf8
  split
  · exact trivial
  · exact h.raises _ _ rfl

theorem loadsUtf8 (h : ScanInvariant hook P E) (b : Bytes) : Spec (loadsUtf8 hook b) P E :=
  (h.decodeUtf8 b).bind fun s _ => h.loads s

omit [Interp] in
/-- A dictionary is made of any items. -/
theorem dictHook {E : Raised ε → Prop} (h : ∀ k t, k.isValueError = true → E (.builtin k t)) :
    ScanInvariant Py.dictHook (fun _ => True) E where
  scalar _ _ := trivial
  arr _ _ := trivial
  hook _ _ := trivial
  raises := h

end ScanInvariant

/-! ## Another hook -/

/-- Where `hook` makes a value with `P` of an object, `hook'` makes the same, and `P` holds of the parts. -/
structure HookLe (hook hook' : PairsHook ε) (P : Json → Prop) : Prop where
  arr : ∀ xs, P (.arr xs) → ∀ x ∈ xs, P x
  hook : ∀ pairs j, P j → hook pairs = .ok j → hook' pairs = .ok j ∧ ∀ kv ∈ pairs, P kv.2

namespace HookLe
variable {hook hook' : PairsHook ε} {P : Json → Prop}

/-- By induction on the fuel, for values, items and fields at once. -/
theorem scan (h : HookLe hook hook' P) (n : Nat) :
    (∀ s j r, P j → scanValue hook n s = .ok (j, r) → scanValue hook' n s = .ok (j, r)) ∧
    (∀ s xs r, (∀ x ∈ xs, P x) → scanItems hook n s = .ok (xs, r) → scanItems hook' n s = .ok (xs, r)) ∧
    (∀ s d r, (∀ kv ∈ d, P kv.2) → scanFields hook n s = .ok (d, r) → scanFields hook' n s = .ok (d, r)) := by
  induction n with
  | zero => simp [scanValue, scanItems, scanFields, decodeError]
  | succ n ih =>
    obtain ⟨hvalue, hitems, hfields⟩ := ih
    refine ⟨fun s j r hP hs => ?_, fun s xs r hP hs => ?_, fun s d r hP hs => ?_⟩
    · cases s with
      | nil => rwa [scanValue] at hs ⊢
      | cons c t =>
        rw [scanValue] at hs ⊢
        by_cases hq : c = cp '"'
        · rwa [if_pos hq] at hs ⊢
        rw [if_neg hq] at hs ⊢
        by_cases hb : c = cp '['
        · rw [if_pos hb] at hs ⊢
          cases he : consume? [cp ']'] (skipWs t) with
          | some r₁ => rwa [he] at hs
          | none =>
            simp only [he, bind_ok_iff, Except.ok.injEq, Prod.mk.injEq] at hs ⊢
            obtain ⟨⟨xs, r₁⟩, hxs, rfl, rfl⟩ := hs
            exact ⟨(xs, r₁), hitems _ _ _ (h.arr xs hP) hxs, rfl, rfl⟩
        rw [if_neg hb] at hs ⊢
        by_cases ho : c = cp '{'
        · rw [if_pos ho] at hs ⊢
          cases he : consume? [cp '}'] (skipWs t) with
          | some r₁ =>
            simp only [he, bind_ok_iff, Except.ok.injEq, Prod.mk.injEq] at hs ⊢
            obtain ⟨j, hj, rfl, rfl⟩ := hs
            exact ⟨j, (h.hook [] j hP hj).1, rfl, rfl⟩
          | none =>
            simp only [he, bind_ok_iff, Except.ok.injEq, Prod.mk.injEq] at hs ⊢
            obtain ⟨⟨d, r₁⟩, hd, j, hj, rfl, rfl⟩ := hs
            have hobj := h.hook d j hP hj
            exact ⟨(d, r₁), hfields _ _ _ hobj.2 hd, j, hobj.1, rfl, rfl⟩
        · rwa [if_neg ho] at hs ⊢
    · rw [scanItems] at hs ⊢
      simp only [bind_ok_iff] at hs ⊢
      obtain ⟨⟨x, r₁⟩, hx, hs⟩ := hs
      cases he : consume? [cp ']'] (skipWs r₁) with
      | some r₂ =>
        simp only [he, Except.ok.injEq, Prod.mk.injEq] at hs
        obtain ⟨rfl, rfl⟩ := hs
        exact ⟨(x, r₁), hvalue _ _ _ (hP x (by simp)) hx, by simp only [he]⟩
      | none =>
        simp only [he, bind_ok_iff, Except.ok.injEq, Prod.mk.injEq] at hs
        obtain ⟨r₂, hr₂, ⟨ys, r₃⟩, hys, rfl, rfl⟩ := hs
        refine ⟨(x, r₁), hvalue _ _ _ (hP x (by simp)) hx, ?_⟩
        simp only [he, bind_ok_iff]
        exact ⟨r₂, hr₂, (ys, r₃), hitems _ _ _ (fun y hy => hP y (List.mem_cons_of_mem x hy)) hys, rfl⟩
    · rw [scanFields] at hs ⊢
      simp only [bind_ok_iff] at hs ⊢
      obtain ⟨r₁, hr₁, ⟨k, r₂⟩, hk, r₃, hr₃, ⟨v, r₄⟩, hv, hs⟩ := hs
      refine ⟨r₁, hr₁, (k, r₂), hk, r₃, hr₃, ?_⟩
      cases he : consume? [cp '}'] (skipWs r₄) with
      | some r₅ =>
        simp only [he, Except.ok.injEq, Prod.mk.injEq] at hs
        obtain ⟨rfl, rfl⟩ := hs
        exact ⟨(v, r₄), hvalue _ _ _ (hP (k, v) (by simp)) hv, by simp only [he]⟩
      | none =>
        simp only [he, bind_ok_iff, Except.ok.injEq, Prod.mk.injEq] at hs
        obtain ⟨r₅, hr₅, ⟨e, r₆⟩, he', rfl, rfl⟩ := hs
        refine ⟨(v, r₄), hvalue _ _ _ (hP (k, v) (by simp)) hv, ?_⟩
        simp only [he, bind_ok_iff]
        exact ⟨r₅, hr₅, (e, r₆), hfields _ _ _ (fun kv hkv => hP kv (List.mem_cons_of_mem _ hkv)) he', rfl⟩

theorem loads (h : HookLe hook hook' P) {s : Str} {j : Json} (hP : P j) (hs : loads hook s = .ok j) :
    loads hook' s = .ok j := by
  unfold Py.loads at hs ⊢
  by_cases hbom : s.head? = some 0xFEFF
  · rwa [if_pos hbom] at hs ⊢
  · simp only [if_neg hbom, bind_ok_iff] at hs ⊢
    obtain ⟨⟨i, r⟩, hi, hs⟩ := hs
    by_cases hr : (skipWs r).isEmpty = true
    · simp only [hr, if_true, Except.ok.injEq] at hs
      subst hs
      exact ⟨(i, r), (h.scan _).1 _ _ _ hP hi, by simp [hr]⟩
    · simp [hr, decodeError] at hs

end HookLe

theorem loadsUtf8_ok_iff {hook : PairsHook ε} {b : Bytes} {j : Json} :
    loadsUtf8 hook b = .ok j ↔ ∃ s, utf8? s = some b ∧ loads hook s = .ok j := by
  rw [loadsUtf8, bind_ok_iff]
  refine exists_congr fun s => and_congr_left fun _ => ?_
  rw [← fromUtf8?_eq_some_iff, decodeUtf8]
  cases fromUtf8? b <;> simp

end Py
