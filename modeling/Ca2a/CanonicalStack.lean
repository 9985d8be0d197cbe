/-
`canonicalize` on the interpreter's stack.

`_serialize` calls itself for every list and object it meets, and what it
calls takes frames of a stack that is limited: a value that is nested too deep
raises `RecursionError`. `serializeIn` follows the calls of the source and
counts what each takes; `serialize` is what it computes where the stack
suffices (`serializeIn_eq`), and how much suffices is a sum over the nesting
(`Stack.need`). So the canonical form is lossless on the values that fit
(`canonicalizeIn_lossless`). The bodies that are signed stand three levels
high, and `encode` refuses what stands more than 64 high before it
canonicalizes it.
-/
import Ca2a.EnvelopeCodec

namespace Ca2a

open Py

/-! ## The calls of the source -/

/-- The frames of the interpreter's stack that are left, and what each call of the canonicalizer takes of them. -/
structure Stack where
  limit : Nat
  /-- `_serialize` -/
  serialize : Nat
  /-- The generator over the items of a list or of an object, and the `join` that runs it. -/
  items : Nat
  /-- `_escape_string` -/
  escape : Nat
  /-- The key of `sorted`. -/
  key : Nat

section
variable {ε : Type} [Interp]

/-- The stack is used up. -/
def IsRecursionError (e : Raised ε) : Prop := ∃ t, e = .builtin .recursionError t

/-- A call that takes `cost` of the frames that are left. -/
def enter {α : Type} (cost : Nat) (call : Nat → Except (Raised ε) α) (left : Nat) : Except (Raised ε) α :=
  if cost ≤ left then call (left - cost)
  else .error (.builtin .recursionError (Interp.errorText "maximum recursion depth exceeded" []))

/-- `sorted(d.items(), key=lambda kv: kv[0].encode("utf-16-be"))` -/
def sortedItemsIn {α : Type} (stack : Stack) (d : Dict α) (left : Nat) : Except (Raised ε) (Dict α) := do
  let keyed ← d.mapM fun kv => do
    let k ← enter stack.key (fun _ => utf16be kv.1) left
    .ok (k, kv)
  .ok ((keyed.insertionSort fun a b => a.1 ≤ b.1).map (·.2))

mutual
/-- `_serialize`, with so many frames left for what it calls. -/
def serializeIn (stack : Stack) : Json → Nat → Except (Raised ε) Str
  | .null, _ => .ok (lit "null")
  | .bool true, _ => .ok (lit "true")
  | .bool false, _ => .ok (lit "false")
  | .str s, left => enter stack.escape (fun _ => .ok (escapeString s)) left
  | .int i, _ =>
    if -(maxSafeInteger : Int) ≤ i ∧ i ≤ maxSafeInteger then .ok (strInt i)
    else .error (.builtin .valueError (unsafeIntegerText i))
  | .float _, _ => .error (.builtin .typeError (lit "RFC 8785 canonicalization of floats is not supported in cA2A"))
  | .arr xs, left => do
    let parts ← enter stack.items (serializeItemsIn stack xs) left
    .ok (cp '[' :: join (lit ",") parts ++ [cp ']'])
  | .obj d, left => do
    let items ← sortedItemsIn stack (serializeFieldsIn stack d) left
    let parts ← enter stack.items (fun left => items.mapM fun kv => do
      let k ← enter stack.escape (fun _ => .ok (escapeString kv.1)) left
      let v ← kv.2 left
      .ok (k ++ lit ":" ++ v)) left
    .ok (cp '{' :: join (lit ",") parts ++ [cp '}'])

def serializeItemsIn (stack : Stack) : List Json → Nat → Except (Raised ε) (List Str)
  | [], _ => .ok []
  | x :: xs, left => do
    let s ← enter stack.serialize (serializeIn stack x) left
    let ss ← serializeItemsIn stack xs left
    .ok (s :: ss)

def serializeFieldsIn (stack : Stack) : List (Str × Json) → Dict (Nat → Except (Raised ε) Str)
  | [] => []
  | (k, v) :: d => (k, enter stack.serialize (serializeIn stack v)) :: serializeFieldsIn stack d
end

/-- `canonicalize` -/
def canonicalizeIn (stack : Stack) (j : Json) : Except (Raised ε) Bytes := do
  let s ← enter stack.serialize (serializeIn stack j) stack.limit
  utf8 s

end

/-! ## What a value needs -/

namespace Stack
variable (stack : Stack)

mutual
/-- The frames that `_serialize` needs for what it calls. -/
def need : Json → Nat
  | .str _ => stack.escape
  | .arr xs => stack.items + needItems xs
  | .obj d => max (if d.isEmpty then 0 else stack.key) (stack.items + needFields d)
  | .null | .bool _ | .int _ | .float _ => 0

def needItems : List Json → Nat
  | [] => 0
  | x :: xs => max (stack.serialize + need x) (needItems xs)

def needFields : List (Str × Json) → Nat
  | [] => 0
  | (_, v) :: d => max (max stack.escape (stack.serialize + need v)) (needFields d)
end

/-- The value is not nested too deep. -/
def Fits (j : Json) : Prop := stack.serialize + stack.need j ≤ stack.limit

variable {stack} {n : Nat}

theorem need_arr_le {xs : List Json} :
    stack.need (.arr xs) ≤ n ↔ stack.items ≤ n ∧ ∀ x ∈ xs, stack.serialize + stack.need x ≤ n - stack.items := by
  have hitems : ∀ m, stack.needItems xs ≤ m ↔ ∀ x ∈ xs, stack.serialize + stack.need x ≤ m := by
    intro m
    induction xs with
    | nil => simp [needItems]
    | cons x xs ih => rw [needItems, max_le_iff, ih, List.forall_mem_cons]
  rw [← hitems, need]
  omega

theorem need_obj_le {d : List (Str × Json)} :
    stack.need (.obj d) ≤ n ↔ stack.items ≤ n ∧ ∀ kv ∈ d, stack.key ≤ n ∧ stack.escape ≤ n - stack.items ∧
      stack.serialize + stack.need kv.2 ≤ n - stack.items := by
  have hfields : ∀ m, stack.needFields d ≤ m ↔
      ∀ kv ∈ d, stack.escape ≤ m ∧ stack.serialize + stack.need kv.2 ≤ m := by
    intro m
    induction d with
    | nil => simp [needFields]
    | cons kv d ih => rw [needFields, max_le_iff, max_le_iff, ih, List.forall_mem_cons]
  have hkey : (if d.isEmpty then 0 else stack.key) ≤ n ↔ ∀ kv ∈ d, stack.key ≤ n := by
    cases d with
    | nil => simp
    | cons kv d => exact ⟨fun h _ _ => h, fun h => h kv (by simp)⟩
  rw [need, max_le_iff, hkey, forall₂_and, ← hfields]
  generalize (∀ kv ∈ d, stack.key ≤ n) = fits
  constructor
  · intro h
    exact ⟨by omega, h.1, by omega⟩
  · intro h
    exact ⟨h.2.1, by omega⟩

/-- What a value needs does not depend on the order of its items. -/
theorem need_norm (j : Json) : stack.need j.norm = stack.need j := by
  induction j with
  | null | bool | int | float | str => rfl
  | arr xs ih =>
    refine eq_of_forall_ge_iff fun n => ?_
    rw [Json.norm_arr, need_arr_le, need_arr_le, List.forall_mem_map]
    refine and_congr_right fun _ => forall₂_congr fun x hx => ?_
    rw [ih x hx]
  | obj d ih =>
    refine eq_of_forall_ge_iff fun n => ?_
    rw [Json.norm_obj, need_obj_le, need_obj_le]
    simp only [Json.mem_sortKeys, List.forall_mem_map]
    refine and_congr_right fun _ => forall₂_congr fun kv hkv => ?_
    rw [ih kv hkv]

theorem fits_norm {j : Json} : stack.Fits j.norm ↔ stack.Fits j := by rw [Fits, need_norm, Fits]

/-- A value that stands no higher than `n` fits where so many levels do. -/
theorem need_le_of_height {j : Json} (h : j.height ≤ n) :
    stack.need j ≤ n * (stack.items + stack.serialize) + stack.items + stack.escape + stack.key := by
  induction j generalizing n with
  | null | bool | int | float => exact Nat.zero_le _
  | str s =>
    rw [need]
    omega
  | arr xs ih =>
    rw [need_arr_le]
    refine ⟨by omega, fun x hx => ?_⟩
    obtain ⟨m, rfl⟩ : ∃ m, n = m + 1 := ⟨n - 1, by have := Json.height_arr_le.mp h x hx; omega⟩
    have := ih x hx (Nat.le_of_succ_le_succ (Json.height_arr_le.mp h x hx))
    rw [Nat.succ_mul]
    omega
  | obj d ih =>
    rw [need_obj_le]
    refine ⟨by omega, fun kv hkv => ⟨by omega, by omega, ?_⟩⟩
    obtain ⟨m, rfl⟩ : ∃ m, n = m + 1 := ⟨n - 1, by have := Json.height_obj_le.mp h kv hkv; omega⟩
    have := ih kv hkv (Nat.le_of_succ_le_succ (Json.height_obj_le.mp h kv hkv))
    rw [Nat.succ_mul]
    omega

end Stack

/-! ## What the stack changes -/

section
variable {ε : Type} [Interp] {stack : Stack}

theorem enter_of_le {α : Type} {cost left : Nat} (call : Nat → Except (Raised ε) α) (h : cost ≤ left) :
    enter cost call left = call (left - cost) := if_pos h

theorem enter_ok_iff {α : Type} {cost left : Nat} {call : Nat → Except (Raised ε) α} {a : α} :
    enter cost call left = .ok a ↔ cost ≤ left ∧ call (left - cost) = .ok a := by
  unfold enter
  split
  · rename_i h
    exact (and_iff_right h).symm
  · rename_i h
    exact iff_of_false (by simp) fun h' => h h'.1

theorem enter_raises {α : Type} {cost left : Nat} {call : Nat → Except (Raised ε) α} {exc : Raised ε → Prop}
    (hdeep : ∀ t, exc (.builtin .recursionError t)) (h : Spec (call (left - cost)) (fun _ => True) exc) :
    Spec (enter cost call left) (fun _ => True) exc := by
  unfold enter
  split
  · exact h
  · exact hdeep _

omit [Interp] in
/-- A loop whose steps return what those of another do, under a condition. -/
theorem mapM_ok_and_iff {α β : Type} {f g : α → Except (Raised ε) β} {p : α → Prop} {l : List α} {r : List β}
    (h : ∀ a ∈ l, ∀ b, f a = .ok b ↔ p a ∧ g a = .ok b) : l.mapM f = .ok r ↔ (∀ a ∈ l, p a) ∧ l.mapM g = .ok r := by
  rw [mapM_ok_iff, mapM_ok_iff, ← List.forall₂_and_left]
  induction l generalizing r with
  | nil => simp
  | cons a l ih =>
    rw [List.forall_mem_cons] at h
    simp only [List.forall₂_cons_left_iff]
    refine exists_congr fun b => exists_congr fun bs => ?_
    rw [h.1, ih h.2]

theorem serializeItemsIn_eq (xs : List Json) (left : Nat) :
    serializeItemsIn (ε := ε) stack xs left = xs.mapM fun x => enter stack.serialize (serializeIn stack x) left := by
  induction xs with
  | nil => rfl
  | cons x xs ih => simp [serializeItemsIn, ih]; rfl

theorem serializeFieldsIn_eq (d : List (Str × Json)) :
    serializeFieldsIn (ε := ε) stack d = d.map fun kv => (kv.1, enter stack.serialize (serializeIn stack kv.2)) := by
  induction d with
  | nil => rfl
  | cons kv d ih => simp [serializeFieldsIn, ih]

theorem sortedItemsIn_of_le {α : Type} {d : Dict α} {left : Nat} (h : ∀ kv ∈ d, stack.key ≤ left) :
    sortedItemsIn (ε := ε) stack d left = sortedItems d := by
  cases d with
  | nil => rfl
  | cons kv d =>
    have hkey : ∀ kv : Str × α, enter stack.key (fun _ => utf16be (ε := ε) kv.1) left = utf16be kv.1 := fun kv =>
      enter_of_le _ (h _ List.mem_cons_self)
    simp only [sortedItemsIn, sortedItems, hkey]

theorem sortedItemsIn_deep {α : Type} {d : Dict α} {left : Nat} (h : ¬ ∀ kv ∈ d, stack.key ≤ left) :
    ∃ t, sortedItemsIn (ε := ε) stack d left = .error (.builtin .recursionError t) := by
  cases d with
  | nil => exact absurd (by simp) h
  | cons kv d =>
    have hkey : ¬ stack.key ≤ left := fun hle => h fun _ _ => hle
    exact ⟨_, by simp only [sortedItemsIn, List.mapM_cons, enter, if_neg hkey, error_bind]; rfl⟩

/-- The items of an object in the order of their keys, where all of them are encoded. -/
theorem sortedItemsIn_ok_iff {α : Type} {d items : Dict α} {left : Nat} :
    sortedItemsIn (ε := ε) stack d left = .ok items ↔
      (∀ kv ∈ d, stack.key ≤ left) ∧ (∀ kv ∈ d, Clean kv.1) ∧ items = Json.sortKeys d := by
  by_cases h : ∀ kv ∈ d, stack.key ≤ left
  · rw [sortedItemsIn_of_le h, and_iff_right h]
    refine ⟨fun hsorted => ?_, fun hclean => ?_⟩
    · have hclean := sortedItems_clean hsorted
      rw [sortedItems_eq hclean] at hsorted
      exact ⟨hclean, (Except.ok.inj hsorted).symm⟩
    · rw [sortedItems_eq hclean.1, hclean.2]
  · obtain ⟨t, ht⟩ := sortedItemsIn_deep (ε := ε) h
    rw [ht]
    exact iff_of_false (by simp) fun h' => h h'.1

/-- The field of an object, from its value's text. -/
def fieldOf (kv : Str × Json) : Except (Raised ε) Str := do
  let v ← serialize kv.2
  .ok (escapeString kv.1 ++ lit ":" ++ v)

theorem serialize_obj_ok_iff {d : List (Str × Json)} {s : Str} :
    serialize (ε := ε) (.obj d) = .ok s ↔ (∀ kv ∈ d, Clean kv.1) ∧
      ∃ parts, (Json.sortKeys d).mapM (fieldOf (ε := ε)) = .ok parts ∧ cp '{' :: join (lit ",") parts ++ [cp '}'] = s := by
  have hsort : Json.sortKeys (serializeFields (ε := ε) d) = (Json.sortKeys d).map fun kv => (kv.1, serialize kv.2) := by
    rw [serializeFields_eq, Json.sortKeys_map]
  have hfields : (∀ kv ∈ serializeFields (ε := ε) d, Clean kv.1) ↔ ∀ kv ∈ d, Clean kv.1 := by
    rw [serializeFields_eq, List.forall_mem_map]
  rw [serialize, bind_ok_iff, ← hfields]
  refine ⟨fun h => ?_, fun h => ?_⟩
  · obtain ⟨items, hitems, h⟩ := h
    have hclean := sortedItems_clean hitems
    rw [sortedItems_eq hclean, hsort] at hitems
    cases hitems
    obtain ⟨parts, hparts, h⟩ := bind_ok_iff.mp h
    rw [List.mapM_map] at hparts
    exact ⟨hclean, parts, hparts, Except.ok.inj h⟩
  · obtain ⟨hclean, parts, hparts, rfl⟩ := h
    refine ⟨_, sortedItems_eq hclean, bind_ok_iff.mpr ⟨parts, ?_, rfl⟩⟩
    rw [hsort, List.mapM_map]
    exact hparts

/-- **What `_serialize` returns on a stack**: what it returns on one that suffices, where this one does. -/
theorem serializeIn_ok_iff {j : Json} {left : Nat} {s : Str} :
    serializeIn (ε := ε) stack j left = .ok s ↔ stack.need j ≤ left ∧ serialize (ε := ε) j = .ok s := by
  induction j generalizing left s with
  | null | int | float => simp [serializeIn, serialize, Stack.need]
  | bool b => cases b <;> simp [serializeIn, serialize, Stack.need]
  | str t => rw [serializeIn, enter_ok_iff, Stack.need, serialize]
  | arr xs ih =>
    have hitems : ∀ left parts, xs.mapM (fun x => enter stack.serialize (serializeIn (ε := ε) stack x) left) = .ok parts ↔
        (∀ x ∈ xs, stack.serialize + stack.need x ≤ left) ∧ xs.mapM (serialize (ε := ε)) = .ok parts := by
      intro left parts
      refine mapM_ok_and_iff fun x hx t => ?_
      rw [enter_ok_iff, ih x hx, ← and_assoc]
      refine and_congr_left fun _ => ?_
      omega
    rw [serializeIn, serialize, bind_ok_iff, bind_ok_iff, Stack.need_arr_le]
    simp only [enter_ok_iff, serializeItemsIn_eq, serializeItems_eq, hitems]
    grind
  | obj d ih =>
    have hparts : ∀ left parts, (Json.sortKeys d).mapM (fun kv => do
        let k ← enter (ε := ε) stack.escape (fun _ => .ok (escapeString kv.1)) left
        let v ← enter stack.serialize (serializeIn stack kv.2) left
        .ok (k ++ lit ":" ++ v)) = .ok parts ↔
        (∀ kv ∈ d, stack.escape ≤ left ∧ stack.serialize + stack.need kv.2 ≤ left) ∧
          (Json.sortKeys d).mapM (fieldOf (ε := ε)) = .ok parts := by
      intro left parts
      have hd : (∀ kv ∈ d, stack.escape ≤ left ∧ stack.serialize + stack.need kv.2 ≤ left) ↔
          ∀ kv ∈ Json.sortKeys d, stack.escape ≤ left ∧ stack.serialize + stack.need kv.2 ≤ left := by
        simp only [Json.mem_sortKeys]
      rw [hd]
      refine mapM_ok_and_iff fun kv hkv t => ?_
      simp only [bind_ok_iff, enter_ok_iff, fieldOf, ih kv (Json.mem_sortKeys.mp hkv)]
      refine ⟨fun h => ?_, fun h => ?_⟩
      · obtain ⟨_, ⟨hescape, hk⟩, v, ⟨hcall, hneed, hv⟩, h⟩ := h
        cases hk
        exact ⟨⟨hescape, by omega⟩, v, hv, h⟩
      · obtain ⟨⟨hescape, hneed⟩, v, hv, h⟩ := h
        exact ⟨_, ⟨hescape, rfl⟩, v, ⟨by omega, by omega, hv⟩, h⟩
    rw [serialize_obj_ok_iff, serializeIn, serializeFieldsIn_eq, bind_ok_iff, Stack.need_obj_le]
    simp only [sortedItemsIn_ok_iff, Json.sortKeys_map, List.forall_mem_map]
    refine ⟨fun h => ?_, fun h => ?_⟩
    · obtain ⟨_, ⟨hkey, hclean, rfl⟩, h⟩ := h
      obtain ⟨parts, hrun, h⟩ := bind_ok_iff.mp h
      obtain ⟨hleft, hrun⟩ := enter_ok_iff.mp hrun
      rw [List.mapM_map] at hrun
      obtain ⟨hfits, hrun⟩ := (hparts _ _).mp hrun
      exact ⟨⟨hleft, fun kv hkv => ⟨hkey kv hkv, hfits kv hkv⟩⟩, hclean, parts, hrun, Except.ok.inj h⟩
    · obtain ⟨⟨hleft, hfits⟩, hclean, parts, hrun, rfl⟩ := h
      refine ⟨_, ⟨fun kv hkv => (hfits kv hkv).1, hclean, rfl⟩, bind_ok_iff.mpr ⟨parts, enter_ok_iff.mpr ⟨hleft, ?_⟩, rfl⟩⟩
      rw [List.mapM_map]
      exact (hparts _ _).mpr ⟨fun kv hkv => (hfits kv hkv).2, hrun⟩

omit [Interp] in
theorem mapM_congr_mem {α β : Type} {f g : α → Except (Raised ε) β} {l : List α} (h : ∀ a ∈ l, f a = g a) :
    l.mapM f = l.mapM g := by
  induction l with
  | nil => rfl
  | cons a l ih =>
    rw [List.forall_mem_cons] at h
    rw [List.mapM_cons, List.mapM_cons, h.1, ih h.2]

/-- An item with the octets its key sorts by. -/
def keyed {α : Type} (kv : Str × α) : Except (Raised ε) (Bytes × Str × α) := do
  let k ← utf16be kv.1
  .ok (k, kv)

theorem sortedItems_eq_keyed {α : Type} (d : Dict α) : sortedItems (ε := ε) d = (do
    let items ← d.mapM (keyed (ε := ε))
    .ok ((items.insertionSort fun a b => a.1 ≤ b.1).map (·.2))) := rfl

/-- Sorting the items does not look at their values. -/
theorem sortedItems_map {α β : Type} (f : α → β) (d : Dict α) :
    sortedItems (ε := ε) (d.map fun kv => (kv.1, f kv.2)) =
      (sortedItems (ε := ε) d).map fun items => items.map fun kv => (kv.1, f kv.2) := by
  have hkeyed : (d.map fun kv => (kv.1, f kv.2)).mapM (keyed (ε := ε)) =
      (d.mapM (keyed (ε := ε))).map fun items => items.map fun p => (p.1, p.2.1, f p.2.2) := by
    induction d with
    | nil => rfl
    | cons kv d ih =>
      rw [List.map_cons, List.mapM_cons, List.mapM_cons, ih, keyed, keyed]
      cases utf16be (ε := ε) kv.1 with
      | error e => rfl
      | ok k => cases d.mapM (keyed (ε := ε)) <;> rfl
  rw [sortedItems_eq_keyed, sortedItems_eq_keyed, hkeyed]
  cases d.mapM (keyed (ε := ε)) with
  | error e => rfl
  | ok items =>
    have hsort := List.map_insertionSort (fun a b : Bytes × Str × α => a.1 ≤ b.1) (fun a b : Bytes × Str × β => a.1 ≤ b.1)
      (fun p => (p.1, p.2.1, f p.2.2)) items fun _ _ _ _ => Iff.rfl
    simp only [Except.map, ok_bind]
    rw [← hsort, List.map_map, List.map_map]
    rfl

/-- **Where the stack suffices, it is not seen.** -/
theorem serializeIn_eq {j : Json} {left : Nat} (h : stack.need j ≤ left) :
    serializeIn (ε := ε) stack j left = serialize j := by
  induction j generalizing left with
  | null | int | float => rfl
  | bool b => cases b <;> rfl
  | str s =>
    rw [Stack.need] at h
    rw [serializeIn, enter_of_le _ h, serialize]
  | arr xs ih =>
    obtain ⟨hleft, hitems⟩ := Stack.need_arr_le.mp h
    have hparts : serializeItemsIn (ε := ε) stack xs (left - stack.items) = serializeItems xs := by
      rw [serializeItemsIn_eq, serializeItems_eq]
      refine mapM_congr_mem fun x hx => ?_
      have := hitems x hx
      rw [enter_of_le _ (by omega), ih x hx (by omega)]
    rw [serializeIn, enter_of_le _ hleft, hparts]
    rfl
  | obj d ih =>
    obtain ⟨hleft, hfields⟩ := Stack.need_obj_le.mp h
    have hkey : ∀ kv ∈ d.map fun kv => (kv.1, enter (ε := ε) stack.serialize (serializeIn stack kv.2)), stack.key ≤ left :=
      List.forall_mem_map.mpr fun kv hkv => (hfields kv hkv).1
    rw [serializeIn, serialize, serializeFieldsIn_eq, serializeFields_eq, sortedItemsIn_of_le hkey,
      sortedItems_map fun v => enter (ε := ε) stack.serialize (serializeIn stack v), sortedItems_map fun v => serialize v]
    cases hsorted : sortedItems (ε := ε) d with
    | error e => rfl
    | ok items =>
      have hmem : ∀ kv ∈ items, kv ∈ d := by
        rw [sortedItems_eq (sortedItems_clean hsorted)] at hsorted
        cases hsorted
        exact fun kv => Json.mem_sortKeys.mp
      simp only [Except.map, ok_bind, enter_of_le _ hleft, List.mapM_map]
      refine congrArg (· >>= _) (mapM_congr_mem fun kv hkv => ?_)
      obtain ⟨_, hescape, hneed⟩ := hfields kv (hmem kv hkv)
      dsimp only [Function.comp_apply]
      simp only [enter_of_le _ hescape, ok_bind]
      rw [enter_of_le _ (by omega), ih kv (hmem kv hkv) (by omega)]

/-- A value that serializes raises nothing but a `RecursionError`. -/
theorem serializeIn_raises {j : Json} {s : Str} (h : serialize (ε := ε) j = .ok s) (left : Nat) :
    Spec (serializeIn (ε := ε) stack j left) (fun _ => True) IsRecursionError := by
  have hdeep : ∀ t, IsRecursionError (.builtin .recursionError t : Raised ε) := fun t => ⟨t, rfl⟩
  induction j generalizing left s with
  | null => exact trivial
  | bool b => cases b <;> exact trivial
  | int i =>
    rw [serialize] at h
    rw [serializeIn]
    split at h
    · rename_i hrange
      rw [if_pos hrange]
      exact trivial
    · cases h
  | float f => cases h
  | str t =>
    rw [serializeIn]
    exact enter_raises hdeep trivial
  | arr xs ih =>
    rw [serialize, serializeItems_eq] at h
    obtain ⟨parts, hparts, _⟩ := bind_ok_iff.mp h
    rw [serializeIn]
    refine Spec.bind (enter_raises hdeep ?_) fun _ _ => trivial
    rw [serializeItemsIn_eq]
    refine Spec.mapM fun x hx => enter_raises hdeep ?_
    obtain ⟨t, _, ht⟩ := forall₂_mem_left (mapM_ok_iff.mp hparts) hx
    exact ih x hx ht _
  | obj d ih =>
    obtain ⟨hclean, parts, hparts, _⟩ := serialize_obj_ok_iff.mp h
    rw [serializeIn, serializeFieldsIn_eq]
    by_cases hkey : ∀ kv ∈ d.map fun kv => (kv.1, enter (ε := ε) stack.serialize (serializeIn stack kv.2)), stack.key ≤ left
    · have hsorted := sortedItemsIn_ok_iff (ε := ε).mpr ⟨hkey, List.forall_mem_map.mpr hclean, rfl⟩
      rw [hsorted, ok_bind, Json.sortKeys_map]
      refine Spec.bind (enter_raises hdeep ?_) fun _ _ => trivial
      rw [List.mapM_map]
      refine Spec.mapM fun kv hkv => Spec.bind (enter_raises hdeep trivial) fun _ _ => ?_
      obtain ⟨t, _, ht⟩ := forall₂_mem_left (mapM_ok_iff.mp hparts) hkv
      obtain ⟨v, hv, _⟩ := bind_ok_iff.mp ht
      exact Spec.bind (enter_raises hdeep (ih kv (Json.mem_sortKeys.mp hkv) hv _)) fun _ _ => trivial
    · obtain ⟨t, ht⟩ := sortedItemsIn_deep (ε := ε) hkey
      rw [ht]
      exact hdeep t

/-- **What `canonicalize` returns on a stack.** -/
theorem canonicalizeIn_ok_iff {j : Json} {b : Bytes} :
    canonicalizeIn (ε := ε) stack j = .ok b ↔ stack.Fits j ∧ canonicalize (ε := ε) j = .ok b := by
  rw [canonicalizeIn, canonicalize, bind_ok_iff, bind_ok_iff, Stack.Fits]
  simp only [enter_ok_iff, serializeIn_ok_iff]
  refine ⟨fun h => ?_, fun h => ?_⟩
  · obtain ⟨s, ⟨hcall, hneed, hs⟩, hb⟩ := h
    exact ⟨by omega, s, hs, hb⟩
  · obtain ⟨hfits, s, hs, hb⟩ := h
    exact ⟨s, ⟨by omega, by omega, hs⟩, hb⟩

theorem canonicalizeIn_eq {j : Json} (h : stack.Fits j) : canonicalizeIn (ε := ε) stack j = canonicalize j := by
  rw [Stack.Fits] at h
  rw [canonicalizeIn, enter_of_le _ (by omega), serializeIn_eq (by omega), canonicalize]

/-- A value that is nested too deep raises a `RecursionError`. -/
theorem canonicalizeIn_deep {j : Json} (hj : Canonical j) (h : ¬ stack.Fits j) :
    ∃ t, canonicalizeIn (ε := ε) stack j = .error (.builtin .recursionError t) := by
  obtain ⟨b, hb⟩ := (exists_canonicalize_iff (ε := ε)).mpr hj
  obtain ⟨s, hs, hutf8⟩ := bind_ok_iff.mp hb
  have hspec : Spec (enter (ε := ε) stack.serialize (serializeIn stack j) stack.limit) (fun _ => True) IsRecursionError :=
    enter_raises (fun t => ⟨t, rfl⟩) (serializeIn_raises hs _)
  cases hrun : enter (ε := ε) stack.serialize (serializeIn stack j) stack.limit with
  | error e =>
    obtain ⟨t, rfl⟩ := hspec.of_error hrun
    exact ⟨t, by rw [canonicalizeIn, hrun]; rfl⟩
  | ok s' =>
    have hs' := serializeIn_ok_iff.mp (enter_ok_iff.mp hrun).2
    obtain rfl : s = s' := Except.ok.inj (hs.symm.trans hs'.2)
    exact absurd (canonicalizeIn_ok_iff.mp (show canonicalizeIn (ε := ε) stack j = .ok b by
      rw [canonicalizeIn, hrun]; exact hutf8)).1 h

end

/-! ## What the runtime canonicalizes -/

namespace Stack

/-- There is room for what stands `n` levels high. -/
def Takes (stack : Stack) (n : Nat) : Prop :=
  stack.serialize + (n * (stack.items + stack.serialize) + stack.items + stack.escape + stack.key) ≤ stack.limit

theorem Takes.fits {stack : Stack} {n : Nat} (hstack : stack.Takes n) {j : Json} (h : j.height ≤ n) : stack.Fits j := by
  have := stack.need_le_of_height h
  rw [Takes] at hstack
  rw [Fits]
  omega

end Stack

theorem height_str (s : Str) : (Json.str s).height = 0 := rfl

theorem height_optStr (o : Option Str) : (optStr o).height = 0 := by cases o <;> rfl

theorem height_strArr (l : List Str) : (strArr l).height ≤ 1 := by
  refine Json.height_arr_le.mpr fun x hx => ?_
  obtain ⟨s, _, rfl⟩ := List.mem_map.mp hx
  rw [height_str]

theorem height_optField {k : Str} {o : Option Json} {n : Nat} (h : ∀ v ∈ o, v.height ≤ n) :
    ∀ kv ∈ optField k o, kv.2.height ≤ n := by
  intro kv hkv
  obtain ⟨v, hv, rfl⟩ := mem_optField.mp hkv
  exact h v hv

theorem height_obj_of_le {d : Dict Json} {n : Nat} (h : ∀ kv ∈ d, kv.2.height ≤ n) : (Json.obj d).height ≤ n + 1 :=
  Json.height_obj_le.mpr fun kv hkv => Nat.succ_le_succ (h kv hkv)

/-- The bodies that are signed or hashed are objects of scalars and of lists of texts. -/
theorem height_body [Crypto] (c : DelegationCredential) (s : RevocationStatement) (p : ProofFields) (r : DelegationRecord) :
    c.body.height ≤ 2 ∧ s.body.height ≤ 2 ∧ (proofBody p).height ≤ 2 ∧ r.body.height ≤ 2 := by
  have hint : ∀ i : Int, (Json.int i).height = 0 := fun _ => rfl
  have hstrs : ∀ l : List Str, (strArr l).height ≤ 1 := height_strArr
  have hnat : ∀ {o : Option Nat}, ∀ v ∈ o.map fun n : Nat => Json.int n, v.height ≤ 1 := by
    intro o v hv
    obtain ⟨n, _, rfl⟩ := Option.map_eq_some_iff.mp hv
    exact Nat.zero_le 1
  have hstr : ∀ {o : Option Str}, ∀ v ∈ o.map Json.str, v.height ≤ 1 := by
    intro o v hv
    obtain ⟨t, _, rfl⟩ := Option.map_eq_some_iff.mp hv
    exact Nat.zero_le 1
  have hscope : ∀ v ∈ r.effectiveScope.map fun scope => strArr (sortedStrs scope), v.height ≤ 1 := by
    intro v hv
    obtain ⟨scope, _, rfl⟩ := Option.map_eq_some_iff.mp hv
    exact height_strArr _
  have hdecision : ∀ v ∈ (if r.decision = lit "allow" then none else some (Json.str r.decision)), v.height ≤ 1 := by
    split <;> simp [height_str]
  refine ⟨height_obj_of_le ?_, height_obj_of_le ?_, height_obj_of_le ?_, height_obj_of_le ?_⟩
  · simp only [List.forall_mem_append]
    refine ⟨⟨?_, height_optField hnat⟩, height_optField hnat⟩
    simp [height_str, height_optStr, hint, hstrs]
  · simp [height_str, hint]
  · simp [height_str, height_optStr, payloadSha256]
  · simp only [List.forall_mem_append]
    refine ⟨⟨⟨⟨?_, height_optField hdecision⟩, height_optField hstr⟩, height_optField hscope⟩, height_optField hstr⟩
    simp [height_str, height_optStr, hstrs]

section
variable [Interp] {stack : Stack}

/-- **What is signed or hashed does not see a stack that takes two levels.** -/
theorem canonicalizeIn_body [Crypto] (hstack : stack.Takes 2) (c : DelegationCredential) (s : RevocationStatement)
    (p : ProofFields) (r : DelegationRecord) :
    canonicalizeIn (ε := CA2AError) stack c.body = canonicalize c.body ∧
      canonicalizeIn (ε := CA2AError) stack s.body = canonicalize s.body ∧
      canonicalizeIn (ε := CA2AError) stack (proofBody p) = canonicalize (proofBody p) ∧
      canonicalizeIn (ε := CA2AError) stack r.body = canonicalize r.body := by
  obtain ⟨hc, hs, hp, hr⟩ := height_body c s p r
  exact ⟨canonicalizeIn_eq (hstack.fits hc), canonicalizeIn_eq (hstack.fits hs), canonicalizeIn_eq (hstack.fits hp),
    canonicalizeIn_eq (hstack.fits hr)⟩

/-- What `encode` lets pass is canonicalized the same on a stack that takes 64 levels. -/
theorem canonicalizeIn_checked (hstack : stack.Takes 64) {d : Dict Json} (h : check 0 (.obj d) = .ok ()) :
    canonicalizeIn (ε := CA2AError) stack (.obj d) = canonicalize (.obj d) := by
  have hheight := (check_ok_iff (Nat.zero_le 64)).mp h
  exact canonicalizeIn_eq (hstack.fits (by omega))

end

/-! ## The canonical form is lossless -/

/-- A value built from null, booleans, integers, strings, lists and dictionaries. -/
structure PlainJson where
  value : Json
  wf : value.WF
  noFloat : value.NoFloat

section
variable {ε : Type} [Interp] (stack : Stack)

/-- **`canonicalize` is a lossless canonical form** of the values that the stack takes, and the others it takes for too deep. -/
theorem canonicalizeIn_lossless (v : PlainJson) :
    ((∃ b, canonicalizeIn (ε := ε) stack v.value = .ok b) ↔
      v.value.IntsWithin maxSafeInteger ∧ v.value.CleanText ∧ stack.Fits v.value) ∧
    (v.value.IntsWithin maxSafeInteger → v.value.CleanText → ¬ stack.Fits v.value →
      ∃ t, canonicalizeIn (ε := ε) stack v.value = .error (.builtin .recursionError t)) ∧
    ∀ b, canonicalizeIn (ε := ε) stack v.value = .ok b →
      (∃ w : PlainJson, loadsUtf8 (ε := ε) dictHook b = .ok w.value ∧ loadsUtf8 (ε := ε) pairsHook b = .ok w.value ∧
        v.value.Same w.value ∧ w.value.KeysSorted ∧ canonicalizeIn (ε := ε) stack w.value = .ok b) ∧
      ∀ v' : PlainJson, canonicalizeIn (ε := ε) stack v'.value = .ok b ↔ v.value.Same v'.value := by
  simp only [canonicalizeIn_ok_iff, exists_and_left, exists_canonicalize_iff]
  refine ⟨⟨fun h => ⟨h.2.ints, h.2.clean, h.1⟩, fun h => ⟨h.2.2, v.noFloat, h.1, h.2.1⟩⟩, fun hints hclean hdeep => ?_,
    fun b h => ⟨?_, fun v' => ⟨fun h' => same_of_canonicalize v.wf v'.wf h.2 h'.2, fun hsame => ?_⟩⟩⟩
  · exact canonicalizeIn_deep ⟨v.noFloat, hints, hclean⟩ hdeep
  · have hj := (canonicalize_ok_iff.mp h.2).1
    exact ⟨⟨v.value.norm, Json.wf_norm.mpr v.wf, Json.noFloat_norm.mpr v.noFloat⟩, loads_canonicalize dictHook_nodup v.wf h.2,
      loads_canonicalize (fun _ _ => rfl) v.wf h.2, Json.same_norm v.wf, Json.keysSorted_norm v.wf hj.clean,
      Stack.fits_norm.mpr h.1, canonicalize_norm h.2⟩
  · have hj := (canonicalize_ok_iff.mp h.2).1
    refine ⟨?_, canonicalize_of_same v.wf v'.wf h.2 hsame⟩
    rw [← Stack.fits_norm, ← Json.norm_eq_of_same v.wf v'.wf hj.clean hsame, Stack.fits_norm]
    exact h.1

end

/-- The frames of Python's own limit, where each call of a function takes one. -/
def defaultStack : Stack where
  limit := 1000
  serialize := 1
  items := 1
  escape := 1
  key := 1

/-- A list in so many lists. -/
def nested : Nat → Json
  | 0 => .arr []
  | n + 1 => .arr [nested n]

theorem need_nested (n : Nat) : defaultStack.need (nested n) = 2 * n + 1 := by
  induction n with
  | zero => rfl
  | succ n ih =>
    rw [nested, Stack.need, Stack.needItems, Stack.needItems, ih]
    simp only [defaultStack]
    omega

theorem all_nested {p : Json → Prop} (h : ∀ xs, p (.arr xs)) (n : Nat) : (nested n).All p := by
  induction n with
  | zero => exact ⟨h _, trivial⟩
  | succ n ih => exact ⟨h _, ih, trivial⟩

def nestedList (n : Nat) : PlainJson where
  value := nested n
  wf := all_nested (fun _ => trivial) n
  noFloat := all_nested (fun _ => trivial) n

/-- 501 lists, one in the other, are in the domain, and raise a `RecursionError`. -/
theorem canonicalizeIn_nestedList :
    let _ := Interp.ascii
    ¬ ((∃ b, canonicalizeIn (ε := Empty) defaultStack (nestedList 500).value = .ok b) ↔
      (nestedList 500).value.IntsWithin maxSafeInteger ∧ (nestedList 500).value.CleanText) ∧
    ∃ t, canonicalizeIn (ε := Empty) defaultStack (nestedList 500).value = .error (.builtin .recursionError t) := by
  intro _
  have hdeep : ¬ defaultStack.Fits (nestedList 500).value := by
    rw [Stack.Fits, nestedList, need_nested]
    decide
  have hints : (nestedList 500).value.IntsWithin maxSafeInteger := all_nested (fun _ => trivial) 500
  have hclean : (nestedList 500).value.CleanText := all_nested (fun _ => trivial) 500
  obtain ⟨t, ht⟩ := canonicalizeIn_deep (ε := Empty) ⟨(nestedList 500).noFloat, hints, hclean⟩ hdeep
  refine ⟨fun h => ?_, t, ht⟩
  obtain ⟨b, hb⟩ := h.mpr ⟨hints, hclean⟩
  cases ht.symm.trans hb

/-- A dictionary whose insertion order is not its key order. -/
def unsortedPair : PlainJson where
  value := .obj [(lit "b", .bool true), (lit "a", .int 1)]
  wf := by simp [Json.WF, Json.All, Json.AllFields, Dict.keys, lit]
  noFloat := by simp [Json.NoFloat, Json.All, Json.AllFields]

theorem canonicalizeIn_unsortedPair :
    let _ := Interp.ascii
    ∃ b, canonicalizeIn (ε := Empty) defaultStack unsortedPair.value = .ok b ∧
      utf8? (lit "\x7b\"a\":1,\"b\":true\x7d") = some b ∧
      ∃ w : PlainJson, loadsUtf8 (ε := Empty) dictHook b = .ok w.value ∧ unsortedPair.value.Same w.value := by
  intro _
  obtain ⟨w, hw, -, hs, -⟩ := ((canonicalizeIn_lossless (ε := Empty) defaultStack unsortedPair).2.2 _ rfl).1
  exact ⟨_, rfl, rfl, w, hw, hs⟩

end Ca2a
