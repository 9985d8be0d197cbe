/-
JSON values as Python holds them after `json.loads`: `None`, booleans,
integers, floats, strings, lists and dictionaries with string keys.

A dictionary is the list of its items in insertion order. Its keys are
distinct (`WF`), and two dictionaries are equal when they have the same
items in any order, which is `Same`. `norm` puts every object of a value in
UTF-16 key order, the order of the JSON canonicalization scheme, and picks
one representative of each class of `Same` (`norm_eq_of_same`,
`same_of_norm_eq`).
-/
import Ca2a.Py.TextFacts

namespace Py

/-! ## Dictionaries -/

/-- A dictionary with string keys, in insertion order. -/
abbrev Dict (α : Type) := List (Str × α)

namespace Dict
variable {α : Type}

def keys (d : Dict α) : List Str := d.map (·.1)

/-- `d.get(k)`. -/
def get? (d : Dict α) (k : Str) : Option α :=
  match d with
  | [] => none
  | (k', v) :: d => if k' = k then some v else get? d k

/-- `k in d`. -/
def has (d : Dict α) (k : Str) : Bool := (get? d k).isSome

/-- `d[k] = v`: an existing key keeps its place. -/
def set (d : Dict α) (k : Str) (v : α) : Dict α :=
  match d with
  | [] => [(k, v)]
  | (k', w) :: d => if k' = k then (k', v) :: d else (k', w) :: set d k v

/-- `d.pop(k, None)`. -/
def erase (d : Dict α) (k : Str) : Dict α := d.filter fun kv => kv.1 ≠ k

/-- `d.update(e)`. -/
def update (d e : Dict α) : Dict α := e.foldl (fun d kv => d.set kv.1 kv.2) d

@[simp] theorem get?_nil (k : Str) : get? ([] : Dict α) k = none := rfl

theorem get?_cons (k' : Str) (v : α) (d : Dict α) (k : Str) :
    get? ((k', v) :: d) k = if k' = k then some v else get? d k := rfl

theorem get?_append (d e : Dict α) (k : Str) : get? (d ++ e) k = (get? d k).or (get? e k) := by
  induction d with
  | nil => simp
  | cons kv d ih =>
    obtain ⟨k', v⟩ := kv
    rw [List.cons_append, get?_cons, get?_cons, ih]
    split <;> simp

theorem get?_mem {d : Dict α} {k : Str} {v : α} (h : get? d k = some v) : (k, v) ∈ d := by
  induction d with
  | nil => simp at h
  | cons kv d ih =>
    obtain ⟨k', w⟩ := kv
    rw [get?_cons] at h
    split at h
    · rename_i he; cases h; subst he; simp
    · simp [ih h]

theorem get?_of_mem {d : Dict α} {k : Str} {v : α} (hd : (keys d).Nodup) (h : (k, v) ∈ d) : get? d k = some v := by
  induction d with
  | nil => simp at h
  | cons kv d ih =>
    obtain ⟨k', w⟩ := kv
    simp only [keys, List.map_cons, List.nodup_cons, List.mem_map, not_exists, not_and] at hd
    simp only [List.mem_cons, Prod.mk.injEq] at h
    rw [get?_cons]
    rcases h with ⟨rfl, rfl⟩ | h
    · simp
    · rw [if_neg (fun he => hd.1 (k, v) h he.symm), ih hd.2 h]

theorem get?_eq_none_iff {d : Dict α} {k : Str} : get? d k = none ↔ k ∉ keys d := by
  induction d with
  | nil => simp [keys]
  | cons kv d ih =>
    obtain ⟨k', w⟩ := kv
    rw [get?_cons]
    split
    · rename_i h; simp [keys, h]
    · rename_i h
      rw [ih]
      simp [keys, Ne.symm h]

/-- The order of the items is not seen by a lookup. -/
theorem get?_perm {d e : Dict α} (hd : (keys d).Nodup) (h : d.Perm e) (k : Str) : get? d k = get? e k := by
  have hkeys : (keys d).Perm (keys e) := h.map _
  cases he : get? e k with
  | some v => exact get?_of_mem hd (h.mem_iff.mpr (get?_mem he))
  | none => exact get?_eq_none_iff.mpr fun hk => get?_eq_none_iff.mp he (hkeys.mem_iff.mp hk)

theorem has_iff_mem_keys {d : Dict α} {k : Str} : has d k = true ↔ k ∈ keys d := by
  rw [has, Option.isSome_iff_ne_none, Ne, get?_eq_none_iff, not_not]

/-- What a key that is there is looked up to, whatever the default. -/
theorem get?_of_mem_keys {d : Dict α} {k : Str} (h : k ∈ keys d) (v : α) : get? d k = some ((get? d k).getD v) := by
  obtain ⟨w, hw⟩ := Option.isSome_iff_exists.mp (has_iff_mem_keys.mpr h)
  rw [hw, Option.getD_some]

theorem get?_set_self (d : Dict α) (k : Str) (v : α) : get? (set d k v) k = some v := by
  induction d with
  | nil => simp [set, get?_cons]
  | cons kv d ih =>
    obtain ⟨k', w⟩ := kv
    simp only [set]
    split <;> rename_i h <;> simp [get?_cons, h, ih]

theorem get?_set_other (d : Dict α) {k k' : Str} (v : α) (h : k' ≠ k) : get? (set d k v) k' = get? d k' := by
  induction d with
  | nil => simp [set, get?_cons, Ne.symm h]
  | cons kv d ih =>
    obtain ⟨k₁, w⟩ := kv
    simp only [set]
    split
    · rename_i h₁; subst h₁; simp [get?_cons, Ne.symm h]
    · simp [get?_cons, ih]

theorem set_of_not_mem {d : Dict α} {k : Str} {v : α} (h : k ∉ keys d) : set d k v = d ++ [(k, v)] := by
  induction d with
  | nil => rfl
  | cons kv d ih =>
    obtain ⟨k', w⟩ := kv
    simp only [keys, List.map_cons, List.mem_cons, not_or] at h
    simp only [set, if_neg (Ne.symm h.1), List.cons_append]
    rw [ih h.2]

theorem get?_erase_other (d : Dict α) {k k' : Str} (h : k' ≠ k) : get? (erase d k) k' = get? d k' := by
  induction d with
  | nil => rfl
  | cons kv d ih =>
    obtain ⟨k₁, v⟩ := kv
    by_cases hk : k₁ = k
    · subst hk
      simpa [erase, get?_cons, Ne.symm h] using ih
    · simpa [erase, get?_cons, hk] using congrArg (fun o => if k₁ = k' then some v else o) ih

theorem get?_erase_self (d : Dict α) (k : Str) : get? (erase d k) k = none := by
  rw [get?_eq_none_iff]
  simp [keys, erase]

/-- Setting a key changes nothing but that key. -/
theorem erase_set_self (d : Dict α) (k : Str) (v : α) : erase (set d k v) k = erase d k := by
  induction d with
  | nil => simp [set, erase]
  | cons kv d ih =>
    obtain ⟨k', w⟩ := kv
    by_cases hk : k' = k
    · simp [set, erase, hk]
    · simpa [set, erase, hk] using ih

theorem keys_append (d e : Dict α) : keys (d ++ e) = keys d ++ keys e := List.map_append

theorem keys_erase_sublist (d : Dict α) (k : Str) : (keys (erase d k)).Sublist (keys d) :=
  (List.filter_sublist).map _

theorem keys_set_of_mem {d : Dict α} {k : Str} {v : α} (h : k ∈ keys d) : keys (set d k v) = keys d := by
  induction d with
  | nil => simp [keys] at h
  | cons kv d ih =>
    obtain ⟨k', w⟩ := kv
    simp only [set]
    split
    · simp [keys]
    · rename_i hk
      have hd : k ∈ keys d := by simpa [keys, Ne.symm hk] using h
      simpa [keys] using ih hd

theorem keys_set_nodup {d : Dict α} (h : (keys d).Nodup) (k : Str) (v : α) : (keys (set d k v)).Nodup := by
  by_cases hk : k ∈ keys d
  · rwa [keys_set_of_mem hk]
  · rw [set_of_not_mem hk]
    rw [keys, List.map_append]
    refine List.nodup_append.mpr ⟨h, by simp, fun a ha b hb he => hk ?_⟩
    obtain rfl : b = k := by simpa using hb
    exact he ▸ ha

theorem mem_set {d : Dict α} {k : Str} {v : α} {kv : Str × α} (h : kv ∈ set d k v) : kv ∈ d ∨ kv.2 = v := by
  induction d with
  | nil => simp_all [set]
  | cons kv' d ih =>
    obtain ⟨k', w⟩ := kv'
    simp only [set] at h
    split at h <;> rcases List.mem_cons.mp h with rfl | h
    · exact .inr rfl
    · exact .inl (List.mem_cons_of_mem _ h)
    · exact .inl (by simp)
    · exact (ih h).imp_left (List.mem_cons_of_mem _)

theorem foldl_set_append {d e : Dict α} (h : (keys (d ++ e)).Nodup) :
    e.foldl (fun d kv => set d kv.1 kv.2) d = d ++ e := by
  induction e generalizing d with
  | nil => simp
  | cons kv e ih =>
    obtain ⟨k, v⟩ := kv
    have hk : k ∉ keys d := by
      intro hk
      simp only [keys, List.map_append, List.map_cons, List.nodup_append, List.mem_cons] at h
      exact h.2.2 k hk k (.inl rfl) rfl
    rw [List.foldl_cons, set_of_not_mem hk, ih (by simpa using h)]
    simp

/-- The keys of the argument of `update` win. -/
theorem get?_update {d e : Dict α} (he : (keys e).Nodup) (k : Str) :
    get? (update d e) k = (get? e k).or (get? d k) := by
  induction e generalizing d with
  | nil => rfl
  | cons kv e ih =>
    obtain ⟨k', v⟩ := kv
    simp only [keys, List.map_cons, List.nodup_cons] at he
    have hstep : get? (update d ((k', v) :: e)) k = (get? e k).or (get? (set d k' v) k) := ih he.2
    rw [hstep, get?_cons]
    by_cases hk : k' = k
    · subst hk
      have hnone : get? e k' = none := get?_eq_none_iff.mpr he.1
      simp [hnone, get?_set_self]
    · rw [get?_set_other _ _ (Ne.symm hk), if_neg hk]

end Dict

/-- A value `json.loads` can deliver. -/
inductive Json
  | null
  | bool (b : Bool)
  | int (i : Int)
  | float (f : PyFloat)
  | str (s : Str)
  | arr (xs : List Json)
  | obj (d : List (Str × Json))

namespace Json

/-- Induction over a value, with the hypothesis for every item and every field. -/
@[induction_eliminator]
theorem ind {P : Json → Prop} (null : P .null) (bool : ∀ b, P (.bool b)) (int : ∀ i, P (.int i))
    (float : ∀ f, P (.float f)) (str : ∀ s, P (.str s)) (arr : ∀ xs, (∀ x ∈ xs, P x) → P (.arr xs))
    (obj : ∀ d, (∀ kv ∈ d, P kv.2) → P (.obj d)) (j : Json) : P j :=
  @Json.rec P (fun xs => ∀ x ∈ xs, P x) (fun d => ∀ kv ∈ d, P kv.2) (fun kv => P kv.2)
    null bool int float str arr obj (by simp)
    (fun _ _ hx hxs => by simpa using ⟨hx, hxs⟩) (by simp)
    (fun kv d hv hd => by
      intro kv' h
      rcases List.mem_cons.mp h with rfl | h
      · exact hv
      · exact hd kv' h)
    (fun _ _ h => h) j

/-! ## Properties of every part of a value -/

mutual
/-- `p` holds of the value and of every value inside it. -/
def All (p : Json → Prop) : Json → Prop
  | .arr xs => p (.arr xs) ∧ AllItems p xs
  | .obj d => p (.obj d) ∧ AllFields p d
  | .null => p .null
  | .bool b => p (.bool b)
  | .int i => p (.int i)
  | .float f => p (.float f)
  | .str s => p (.str s)

def AllItems (p : Json → Prop) : List Json → Prop
  | [] => True
  | x :: xs => All p x ∧ AllItems p xs

def AllFields (p : Json → Prop) : List (Str × Json) → Prop
  | [] => True
  | (_, v) :: d => All p v ∧ AllFields p d
end

theorem allItems_iff {p : Json → Prop} {xs : List Json} : AllItems p xs ↔ ∀ x ∈ xs, All p x := by
  induction xs with
  | nil => simp [AllItems]
  | cons x xs ih => simp [AllItems, ih]

theorem allFields_iff {p : Json → Prop} {d : List (Str × Json)} : AllFields p d ↔ ∀ kv ∈ d, All p kv.2 := by
  induction d with
  | nil => simp [AllFields]
  | cons kv d ih =>
    rw [List.forall_mem_cons, ← ih]
    exact Iff.rfl

theorem all_arr {p : Json → Prop} {xs : List Json} : All p (.arr xs) ↔ p (.arr xs) ∧ ∀ x ∈ xs, All p x := by
  rw [All, allItems_iff]

theorem all_obj {p : Json → Prop} {d : List (Str × Json)} :
    All p (.obj d) ↔ p (.obj d) ∧ ∀ kv ∈ d, All p kv.2 := by
  rw [All, allFields_iff]

theorem All.mono {p q : Json → Prop} (hpq : ∀ j, p j → q j) {j : Json} (h : All p j) : All q j := by
  induction j with
  | null | bool | int | float | str => exact hpq _ h
  | arr xs ih =>
    rw [all_arr] at h ⊢
    exact ⟨hpq _ h.1, fun x hx => ih x hx (h.2 x hx)⟩
  | obj d ih =>
    rw [all_obj] at h ⊢
    exact ⟨hpq _ h.1, fun kv hkv => ih kv hkv (h.2 kv hkv)⟩

/-- A dictionary's keys are distinct, at every level. -/
def WF : Json → Prop := All fun
  | .obj d => (Dict.keys d).Nodup
  | _ => True

/-- No float anywhere. -/
def NoFloat : Json → Prop := All fun
  | .float _ => False
  | _ => True

/-- Every string and key can be encoded. -/
def CleanText : Json → Prop := All fun
  | .str s => Clean s
  | .obj d => ∀ kv ∈ d, Clean kv.1
  | _ => True

/-- Every integer has an absolute value of at most `m`. -/
def IntsWithin (m : Nat) : Json → Prop := All fun
  | .int i => i.natAbs ≤ m
  | _ => True

/-- A dictionary's keys stand in strictly increasing UTF-16 order, at every level. -/
def KeysSorted : Json → Prop := All fun
  | .obj d => (Dict.keys d).Pairwise fun k k' => utf16Units k < utf16Units k'
  | _ => True

@[simp] theorem wf_null : WF .null := trivial
@[simp] theorem wf_bool (b : Bool) : WF (.bool b) := trivial
@[simp] theorem wf_str (s : Str) : WF (.str s) := trivial
@[simp] theorem wf_int (i : Int) : WF (.int i) := trivial
@[simp] theorem wf_obj {d : List (Str × Json)} : WF (.obj d) ↔ (Dict.keys d).Nodup ∧ ∀ kv ∈ d, WF kv.2 := all_obj
@[simp] theorem wf_arr {xs : List Json} : WF (.arr xs) ↔ ∀ x ∈ xs, WF x := all_arr.trans (Iff.of_eq (true_and _))

@[simp] theorem noFloat_null : NoFloat .null := trivial
@[simp] theorem noFloat_bool (b : Bool) : NoFloat (.bool b) := trivial
@[simp] theorem noFloat_str (s : Str) : NoFloat (.str s) := trivial
@[simp] theorem noFloat_int (i : Int) : NoFloat (.int i) := trivial
@[simp] theorem noFloat_obj {d : List (Str × Json)} : NoFloat (.obj d) ↔ ∀ kv ∈ d, NoFloat kv.2 :=
  all_obj.trans (Iff.of_eq (true_and _))
@[simp] theorem noFloat_arr {xs : List Json} : NoFloat (.arr xs) ↔ ∀ x ∈ xs, NoFloat x :=
  all_arr.trans (Iff.of_eq (true_and _))

@[simp] theorem cleanText_obj {d : List (Str × Json)} :
    CleanText (.obj d) ↔ (∀ kv ∈ d, Clean kv.1) ∧ ∀ kv ∈ d, CleanText kv.2 := all_obj
@[simp] theorem cleanText_arr {xs : List Json} : CleanText (.arr xs) ↔ ∀ x ∈ xs, CleanText x :=
  all_arr.trans (Iff.of_eq (true_and _))
@[simp] theorem cleanText_str {s : Str} : CleanText (.str s) ↔ Clean s := by simp [CleanText, All]

@[simp] theorem intsWithin_obj {m : Nat} {d : List (Str × Json)} :
    IntsWithin m (.obj d) ↔ ∀ kv ∈ d, IntsWithin m kv.2 := all_obj.trans (Iff.of_eq (true_and _))
@[simp] theorem intsWithin_arr {m : Nat} {xs : List Json} : IntsWithin m (.arr xs) ↔ ∀ x ∈ xs, IntsWithin m x :=
  all_arr.trans (Iff.of_eq (true_and _))
@[simp] theorem intsWithin_int {m : Nat} {i : Int} : IntsWithin m (.int i) ↔ i.natAbs ≤ m := by
  simp [IntsWithin, All]

theorem WF.erase {d : Dict Json} (h : WF (.obj d)) (k : Str) : WF (.obj (Dict.erase d k)) := by
  rw [wf_obj] at h ⊢
  exact ⟨h.1.sublist (Dict.keys_erase_sublist d k), fun kv hkv => h.2 kv (List.mem_of_mem_filter hkv)⟩

theorem WF.set {d : Dict Json} (h : WF (.obj d)) (k : Str) {v : Json} (hv : WF v) : WF (.obj (Dict.set d k v)) := by
  rw [wf_obj] at h ⊢
  exact ⟨Dict.keys_set_nodup h.1 k v, fun kv hkv => (Dict.mem_set hkv).elim (h.2 kv) fun he => he ▸ hv⟩

/-! ## Equality of values -/

mutual
/-- Equality of values: lists item by item, dictionaries as maps, `True` and `1` apart. -/
def Same : Json → Json → Prop
  | .null, .null => True
  | .bool a, .bool b => a = b
  | .int a, .int b => a = b
  | .float a, .float b => a = b
  | .str a, .str b => a = b
  | .arr xs, .arr ys => SameItems xs ys
  | .obj d, .obj e => d.length = e.length ∧ SameFields d e
  | _, _ => False

def SameItems : List Json → List Json → Prop
  | [], [] => True
  | x :: xs, y :: ys => Same x y ∧ SameItems xs ys
  | _, _ => False

/-- Every item of the first is an item of the second. -/
def SameFields : List (Str × Json) → List (Str × Json) → Prop
  | [], _ => True
  | (k, v) :: d, e => (∃ w, Dict.get? e k = some w ∧ Same v w) ∧ SameFields d e
end

@[simp] theorem same_str {a b : Str} : Same (.str a) (.str b) ↔ a = b := by simp [Same]
@[simp] theorem same_int {a b : Int} : Same (.int a) (.int b) ↔ a = b := by simp [Same]

theorem sameItems_iff {xs ys : List Json} : SameItems xs ys ↔ List.Forall₂ Same xs ys := by
  induction xs generalizing ys with
  | nil => cases ys <;> simp [SameItems]
  | cons x xs ih => cases ys <;> simp [SameItems, ih]

theorem sameFields_iff {d e : List (Str × Json)} :
    SameFields d e ↔ ∀ kv ∈ d, ∃ w, Dict.get? e kv.1 = some w ∧ Same kv.2 w := by
  induction d with
  | nil => simp [SameFields]
  | cons kv d ih =>
    rw [List.forall_mem_cons, ← ih]
    exact Iff.rfl

/-! ## The sorted representative -/

/-- The items of a dictionary in UTF-16 order of their keys. -/
def sortKeys {α : Type} (d : Dict α) : Dict α := d.insertionSort fun a b => utf16Units a.1 ≤ utf16Units b.1

mutual
/-- Every object's items in UTF-16 key order. -/
def norm : Json → Json
  | .arr xs => .arr (normItems xs)
  | .obj d => .obj (sortKeys (normFields d))
  | .null => .null
  | .bool b => .bool b
  | .int i => .int i
  | .float f => .float f
  | .str s => .str s

def normItems : List Json → List Json
  | [] => []
  | x :: xs => norm x :: normItems xs

def normFields : List (Str × Json) → List (Str × Json)
  | [] => []
  | (k, v) :: d => (k, norm v) :: normFields d
end

theorem normItems_eq (xs : List Json) : normItems xs = xs.map norm := by
  induction xs with
  | nil => rfl
  | cons x xs ih => simp [normItems, ih]

theorem normFields_eq (d : List (Str × Json)) : normFields d = d.map fun kv => (kv.1, norm kv.2) := by
  induction d with
  | nil => rfl
  | cons kv d ih => simp [normFields, ih]

@[simp] theorem norm_arr (xs : List Json) : norm (.arr xs) = .arr (xs.map norm) := by
  rw [norm, normItems_eq]

@[simp] theorem norm_obj (d : List (Str × Json)) :
    norm (.obj d) = .obj (sortKeys (d.map fun kv => (kv.1, norm kv.2))) := by
  rw [norm, normFields_eq]

theorem sortKeys_perm {α : Type} (d : Dict α) : (sortKeys d).Perm d := List.perm_insertionSort _ _

theorem sortKeys_sorted {α : Type} (d : Dict α) :
    (sortKeys d).Pairwise fun a b => utf16Units a.1 ≤ utf16Units b.1 :=
  List.pairwise_insertionSort _ _

theorem mem_sortKeys {α : Type} {d : Dict α} {kv : Str × α} : kv ∈ sortKeys d ↔ kv ∈ d :=
  (sortKeys_perm d).mem_iff

/-- Sorting looks at the keys only. -/
theorem sortKeys_map {α β : Type} (f : Str × α → β) (d : Dict α) :
    sortKeys (d.map fun kv => (kv.1, f kv)) = (sortKeys d).map fun kv => (kv.1, f kv) :=
  (List.map_insertionSort (fun a b : Str × α => utf16Units a.1 ≤ utf16Units b.1)
    (fun a b : Str × β => utf16Units a.1 ≤ utf16Units b.1) (fun kv => (kv.1, f kv)) d fun _ _ _ _ => Iff.rfl).symm

/-- Two orders of the same items sort to the same list, the keys being distinct and clean. -/
theorem sortKeys_eq_of_perm {α : Type} {d e : Dict α} (hd : (Dict.keys d).Nodup) (hc : ∀ kv ∈ d, Clean kv.1)
    (h : d.Perm e) : sortKeys d = sortKeys e := by
  have hp : (sortKeys d).Perm (sortKeys e) := ((sortKeys_perm d).trans h).trans (sortKeys_perm e).symm
  refine hp.eq_of_pairwise (fun a b ha hb hab hba => ?_) (sortKeys_sorted d) (sortKeys_sorted e)
  rw [mem_sortKeys] at ha hb
  have hb' : b ∈ d := h.mem_iff.mpr hb
  have hk : a.1 = b.1 := utf16Units_injective (hc a ha) (hc b hb') (le_antisymm hab hba)
  obtain ⟨k, v⟩ := a
  obtain ⟨k', w⟩ := b
  obtain rfl : k = k' := hk
  have := (Dict.get?_of_mem hd ha).symm.trans (Dict.get?_of_mem hd hb')
  simp only [Option.some.injEq] at this
  rw [this]

theorem keys_map_snd {α β : Type} (f : α → β) (d : Dict α) :
    Dict.keys (d.map fun kv => (kv.1, f kv.2)) = Dict.keys d := by
  simp [Dict.keys, Function.comp_def]

theorem keys_sortKeys_nodup {α : Type} {d : Dict α} : (Dict.keys (sortKeys d)).Nodup ↔ (Dict.keys d).Nodup :=
  ((sortKeys_perm d).map _).nodup_iff

/-- A property of the parts of a value that does not look inside lists, and looks at a
dictionary only for its keys in any order, does not see `norm`. -/
theorem all_norm {p : Json → Prop} (harr : ∀ xs ys, p (.arr xs) → p (.arr ys))
    (hobj : ∀ d e : List (Str × Json), (Dict.keys d).Perm (Dict.keys e) → p (.obj d) → p (.obj e)) {j : Json} :
    All p (norm j) ↔ All p j := by
  induction j with
  | null | bool | int | float | str => exact Iff.rfl
  | arr xs ih =>
    rw [norm_arr, all_arr, all_arr]
    refine and_congr ⟨harr _ _, harr _ _⟩ ?_
    rw [List.forall_mem_map]
    exact forall₂_congr ih
  | obj d ih =>
    have hperm : (Dict.keys (sortKeys (d.map fun kv => (kv.1, norm kv.2)))).Perm (Dict.keys d) := by
      rw [← keys_map_snd norm d]
      exact (sortKeys_perm _).map _
    rw [norm_obj, all_obj, all_obj]
    refine and_congr ⟨hobj _ _ hperm, hobj _ _ hperm.symm⟩ ?_
    simp only [mem_sortKeys, List.forall_mem_map]
    exact forall₂_congr ih

theorem wf_norm {j : Json} : WF (norm j) ↔ WF j :=
  all_norm (fun _ _ _ => trivial) (fun _ _ hp h => hp.nodup_iff.mp h)

theorem noFloat_norm {j : Json} : NoFloat (norm j) ↔ NoFloat j :=
  all_norm (fun _ _ _ => trivial) (fun _ _ _ _ => trivial)

theorem intsWithin_norm {m : Nat} {j : Json} : IntsWithin m (norm j) ↔ IntsWithin m j :=
  all_norm (fun _ _ _ => trivial) (fun _ _ _ _ => trivial)

theorem forall_keys_iff {α : Type} {d : Dict α} {p : Str → Prop} : (∀ kv ∈ d, p kv.1) ↔ ∀ k ∈ Dict.keys d, p k := by
  simp [Dict.keys]

theorem cleanText_norm {j : Json} : CleanText (norm j) ↔ CleanText j :=
  all_norm (fun _ _ _ => trivial)
    (fun _ _ hp h => forall_keys_iff.mpr fun k hk => forall_keys_iff.mp h k (hp.mem_iff.mpr hk))

/-- Equal values have one sorted representative. -/
theorem norm_eq_of_same {v w : Json} (hv : WF v) (hw : WF w) (hc : CleanText v) (h : Same v w) :
    norm v = norm w := by
  induction v generalizing w with
  | null | bool | int | float | str => cases w <;> simp_all [Same, norm]
  | arr xs ih =>
    cases w with
    | arr ys =>
      simp only [Same, sameItems_iff] at h
      simp only [norm_arr, arr.injEq]
      rw [wf_arr] at hv hw
      rw [cleanText_arr] at hc
      induction h with
      | nil => rfl
      | @cons x y xs ys hxy hrest ihl =>
        rw [List.map_cons, List.map_cons, ih x (by simp) (hv x (by simp)) (hw y (by simp)) (hc x (by simp)) hxy,
          ihl (fun z hz => ih z (by simp [hz])) (fun z hz => hv z (by simp [hz])) (fun z hz => hc z (by simp [hz]))
            (fun z hz => hw z (by simp [hz]))]
    | _ => simp [Same] at h
  | obj d ih =>
    cases w with
    | obj e =>
      simp only [Same, sameFields_iff] at h
      rw [wf_obj] at hv hw
      rw [cleanText_obj] at hc
      rw [norm_obj, norm_obj]
      congr 1
      have hkd := keys_map_snd norm d
      refine sortKeys_eq_of_perm (by rw [hkd]; exact hv.1) (fun kv hkv => ?_) ?_
      · obtain ⟨kv', hkv', rfl⟩ := List.mem_map.mp hkv
        exact hc.1 kv' hkv'
      · have hsub : (d.map fun kv => (kv.1, norm kv.2)) ⊆ e.map fun kv => (kv.1, norm kv.2) := by
          intro kv hkv
          obtain ⟨⟨k, v⟩, hmem, rfl⟩ := List.mem_map.mp hkv
          obtain ⟨w, hw', hsame⟩ := h.2 (k, v) hmem
          have hwe := Dict.get?_mem hw'
          rw [ih (k, v) hmem (hv.2 _ hmem) (hw.2 _ hwe) (hc.2 _ hmem) hsame]
          exact List.mem_map.mpr ⟨(k, w), hwe, rfl⟩
        have hnd : (d.map fun kv => (kv.1, norm kv.2)).Nodup := by
          refine List.Nodup.of_map (·.1) ?_
          have : (List.map (·.1) (d.map fun kv => (kv.1, norm kv.2))) = Dict.keys d := hkd
          rw [this]; exact hv.1
        exact (hnd.subperm hsub).perm_of_length_le (by simp [h.1])
    | _ => simp [Same] at h

/-- Values with one sorted representative are equal. -/
theorem same_of_norm_eq {v w : Json} (hw : WF w) (h : norm v = norm w) : Same v w := by
  induction v generalizing w with
  | null | bool | int | float | str => cases w <;> simp_all [Same, norm]
  | arr xs ih =>
    cases w with
    | arr ys =>
      simp only [norm_arr, arr.injEq] at h
      simp only [Same, sameItems_iff]
      rw [wf_arr] at hw
      induction xs generalizing ys with
      | nil => cases ys <;> simp_all
      | cons x xs ihx =>
        cases ys with
        | nil => simp at h
        | cons y ys =>
          simp only [List.map_cons, List.cons.injEq] at h
          exact .cons (ih x (by simp) (hw y (by simp)) h.1)
            (ihx (fun z hz => ih z (by simp [hz])) ys (fun z hz => hw z (by simp [hz])) h.2)
    | _ => simp [norm] at h
  | obj d ih =>
    cases w with
    | obj e =>
      simp only [norm_obj, obj.injEq] at h
      have hp : (d.map fun kv => (kv.1, norm kv.2)).Perm (e.map fun kv => (kv.1, norm kv.2)) :=
        (sortKeys_perm _).symm.trans (h ▸ sortKeys_perm _)
      rw [wf_obj] at hw
      simp only [Same, sameFields_iff]
      refine ⟨by simpa using hp.length_eq, fun kv hkv => ?_⟩
      have hm : (kv.1, norm kv.2) ∈ e.map fun kv => (kv.1, norm kv.2) :=
        hp.mem_iff.mp (List.mem_map.mpr ⟨kv, hkv, rfl⟩)
      obtain ⟨⟨k, w⟩, hwe, heq⟩ := List.mem_map.mp hm
      simp only [Prod.mk.injEq] at heq
      obtain ⟨rfl, hn⟩ := heq
      exact ⟨w, Dict.get?_of_mem hw.1 hwe, ih kv hkv (hw.2 _ hwe) hn.symm⟩
    | _ => simp [norm] at h

theorem Same.refl {v : Json} (hv : WF v) : Same v v := same_of_norm_eq hv rfl

theorem Same.symm {v w : Json} (hv : WF v) (hw : WF w) (hc : CleanText v) (h : Same v w) : Same w v :=
  same_of_norm_eq hv (norm_eq_of_same hv hw hc h).symm

/-- Equal dictionaries agree at every key. -/
theorem Same.get? {d e : List (Str × Json)} (h : Same (.obj d) (.obj e)) (h' : Same (.obj e) (.obj d)) (k : Str) :
    Option.Rel Same (Dict.get? d k) (Dict.get? e k) := by
  simp only [Same, sameFields_iff] at h h'
  cases hd : Dict.get? d k with
  | some v =>
    obtain ⟨w, hw, hs⟩ := h.2 _ (Dict.get?_mem hd)
    simp only at hw
    rw [hw]
    exact .some hs
  | none =>
    cases he : Dict.get? e k with
    | none => exact .none
    | some w =>
      obtain ⟨v, hv, _⟩ := h'.2 _ (Dict.get?_mem he)
      simp only [hd] at hv
      cases hv

/-- Sorting a sorted value changes nothing. -/
theorem norm_norm (j : Json) : norm (norm j) = norm j := by
  induction j with
  | null | bool | int | float | str => rfl
  | arr xs ih =>
    simp only [norm_arr, List.map_map, arr.injEq]
    exact List.map_congr_left fun x hx => ih x hx
  | obj d ih =>
    simp only [norm_obj]
    have : (sortKeys (d.map fun kv => (kv.1, norm kv.2))).map (fun kv => (kv.1, norm kv.2)) =
        sortKeys (d.map fun kv => (kv.1, norm kv.2)) := by
      rw [List.map_congr_left (g := id) fun kv hkv => ?_, List.map_id]
      obtain ⟨kv', hkv', rfl⟩ := List.mem_map.mp (mem_sortKeys.mp hkv)
      simp [ih kv' hkv']
    rw [this]
    congr 1
    exact (sortKeys_sorted _).insertionSort_eq

/-- Distinct clean keys are sorted strictly. -/
theorem keys_sortKeys_pairwise {α : Type} {d : Dict α} (hd : (Dict.keys d).Nodup) (hc : ∀ kv ∈ d, Clean kv.1) :
    (Dict.keys (sortKeys d)).Pairwise fun k k' => utf16Units k < utf16Units k' := by
  have hle : (Dict.keys (sortKeys d)).Pairwise fun k k' => utf16Units k ≤ utf16Units k' :=
    List.pairwise_map.mpr (sortKeys_sorted d)
  have hclean : ∀ k ∈ Dict.keys (sortKeys d), Clean k :=
    forall_keys_iff.mp fun kv hkv => hc kv (mem_sortKeys.mp hkv)
  refine (hle.and (keys_sortKeys_nodup.mpr hd)).imp_of_mem fun ha hb h => ?_
  exact lt_of_le_of_ne h.1 fun he => h.2 (utf16Units_injective (hclean _ ha) (hclean _ hb) he)

theorem keysSorted_norm {j : Json} (hw : WF j) (hc : CleanText j) : KeysSorted (norm j) := by
  induction j with
  | null | bool | int | float | str => exact trivial
  | arr xs ih =>
    rw [norm_arr, KeysSorted, all_arr]
    refine ⟨trivial, fun y hy => ?_⟩
    obtain ⟨x, hx, rfl⟩ := List.mem_map.mp hy
    exact ih x hx (wf_arr.mp hw x hx) (cleanText_arr.mp hc x hx)
  | obj d ih =>
    rw [norm_obj, KeysSorted, all_obj]
    rw [wf_obj] at hw
    rw [cleanText_obj] at hc
    refine ⟨keys_sortKeys_pairwise (by rw [keys_map_snd]; exact hw.1) fun kv hkv => ?_, fun kv hkv => ?_⟩
    · obtain ⟨kv', hkv', rfl⟩ := List.mem_map.mp hkv
      exact hc.1 kv' hkv'
    · obtain ⟨kv', hkv', rfl⟩ := List.mem_map.mp (mem_sortKeys.mp hkv)
      exact ih kv' hkv' (hw.2 kv' hkv') (hc.2 kv' hkv')

theorem same_norm {v : Json} (hv : WF v) : Same v (norm v) := same_of_norm_eq (wf_norm.mpr hv) (norm_norm v).symm

/-- The number a value compares as. -/
def number? : Json → Option (WithBot (WithTop ℚ))
  | .bool b => some (((if b then 1 else 0 : ℚ) : WithTop ℚ) : WithBot (WithTop ℚ))
  | .int i => some (((i : ℚ) : WithTop ℚ) : WithBot (WithTop ℚ))
  | .float f => f.value?
  | _ => none

/-- `v == w`: numbers of any type compare as numbers, and `True` is one. -/
inductive PyEq : Json → Json → Prop
  | null : PyEq .null .null
  | number {v w : Json} {x : WithBot (WithTop ℚ)} : v.number? = some x → w.number? = some x → PyEq v w
  | str (s : Str) : PyEq (.str s) (.str s)
  | arr {xs ys : List Json} : List.Forall₂ PyEq xs ys → PyEq (.arr xs) (.arr ys)
  | obj {d e : List (Str × Json)} : (∀ k, Option.Rel PyEq (Dict.get? d k) (Dict.get? e k)) → PyEq (.obj d) (.obj e)

theorem PyEq.refl {v : Json} (h : NoFloat v) : PyEq v v := by
  induction v with
  | null => exact .null
  | bool _ | int _ => exact .number rfl rfl
  | float _ => exact h.elim
  | str s => exact .str s
  | arr xs ih =>
    rw [noFloat_arr] at h
    exact .arr (List.forall₂_same.mpr fun x hx => ih x hx (h x hx))
  | obj d ih =>
    rw [noFloat_obj] at h
    refine .obj fun k => ?_
    cases hk : Dict.get? d k with
    | none => exact .none
    | some v => exact .some (ih _ (Dict.get?_mem hk) (h _ (Dict.get?_mem hk)))

theorem PyEq.get? {d e : List (Str × Json)} (h : PyEq (.obj d) (.obj e)) (k : Str) :
    Option.Rel PyEq (Dict.get? d k) (Dict.get? e k) := by
  cases h with
  | obj h => exact h k
  | number hd _ => cases hd

end Json

/-- A `dict` of JSON values: no key stands twice, at any level. -/
structure JsonDict where
  items : Dict Json
  wf : (Json.obj items).WF

end Py
