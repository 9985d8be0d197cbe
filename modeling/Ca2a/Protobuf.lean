/-
A `google.protobuf.Struct`, and the two conversions of `json_format`.

A `Struct` is JSON without integers: every number is a double. Its texts are
UTF-8, so `ParseDict` refuses a surrogate, and `MessageToDict` refuses a
double that is not finite.
-/
import Ca2a.Canonical
import Ca2a.Errors

namespace Ca2a

open Py

/-- No integer anywhere. -/
def NoInt : Json → Prop := Json.All fun
  | .int _ => False
  | _ => True

/-- Every float is finite. -/
def FiniteFloats : Json → Prop := Json.All fun
  | .float f => f.isFinite = true
  | _ => True

/-- `google.protobuf.Struct` -/
structure Struct where
  items : Dict Json
  wf : (Json.obj items).WF
  noInt : NoInt (.obj items)
  clean : (Json.obj items).CleanText

@[simp] theorem noInt_arr {xs : List Json} : NoInt (.arr xs) ↔ ∀ x ∈ xs, NoInt x := Json.all_arr.trans (Iff.of_eq (true_and _))

@[simp] theorem noInt_obj {d : Dict Json} : NoInt (.obj d) ↔ ∀ kv ∈ d, NoInt kv.2 := Json.all_obj.trans (Iff.of_eq (true_and _))

@[simp] theorem finiteFloats_arr {xs : List Json} : FiniteFloats (.arr xs) ↔ ∀ x ∈ xs, FiniteFloats x :=
  Json.all_arr.trans (Iff.of_eq (true_and _))

@[simp] theorem finiteFloats_obj {d : Dict Json} : FiniteFloats (.obj d) ↔ ∀ kv ∈ d, FiniteFloats kv.2 :=
  Json.all_obj.trans (Iff.of_eq (true_and _))

/-! ## Into a `Struct` -/

section
variable [Interp]

/-- A text of a message. -/
def protoText (s : Str) : Result Str := do
  let _ ← utf8 s
  .ok s

variable (double : Int → Result PyFloat)

mutual
/-- `json_format.ParseDict`, on one value. `double` is `float(i)`, which raises when `i` is too large. -/
def parseValue : Json → Result Json
  | .null => .ok .null
  | .bool b => .ok (.bool b)
  | .int i => do
    let f ← double i
    .ok (.float f)
  | .float f => .ok (.float f)
  | .str s => do
    let s ← protoText s
    .ok (.str s)
  | .arr xs => do
    let ys ← parseItems xs
    .ok (.arr ys)
  | .obj d => do
    let e ← parseFields d
    .ok (.obj e)

def parseItems : List Json → Result (List Json)
  | [] => .ok []
  | x :: xs => do
    let y ← parseValue x
    let ys ← parseItems xs
    .ok (y :: ys)

def parseFields : List (Str × Json) → Result (List (Str × Json))
  | [] => .ok []
  | (k, v) :: d => do
    let k ← protoText k
    let w ← parseValue v
    let e ← parseFields d
    .ok ((k, w) :: e)
end

variable {double}

theorem protoText_ok_iff {s t : Str} : protoText s = .ok t ↔ Clean s ∧ t = s := by
  rw [protoText, bind_ok_iff]
  constructor
  · intro h
    obtain ⟨b, hb, h⟩ := h
    cases h
    exact ⟨utf8?_isSome_iff.mp ⟨b, utf8_ok_iff.mp hb⟩, rfl⟩
  · intro h
    obtain ⟨hs, rfl⟩ := h
    obtain ⟨b, hb⟩ := utf8?_isSome_iff.mpr hs
    exact ⟨b, utf8_ok_iff.mpr hb, rfl⟩

theorem parseItems_ok_iff {xs ys : List Json} :
    parseItems double xs = .ok ys ↔ List.Forall₂ (fun x y => parseValue double x = .ok y) xs ys := by
  induction xs generalizing ys with
  | nil => cases ys <;> simp [parseItems]
  | cons x xs ih =>
    simp only [parseItems, bind_ok_iff, Except.ok.injEq, ih, List.forall₂_cons_left_iff]
    constructor
    · intro h
      obtain ⟨y, hy, ys', hys, rfl⟩ := h
      exact ⟨y, ys', hy, hys, rfl⟩
    · intro h
      obtain ⟨y, ys', hy, hys, rfl⟩ := h
      exact ⟨y, hy, ys', hys, rfl⟩

theorem parseFields_ok_iff {d e : List (Str × Json)} :
    parseFields double d = .ok e ↔
      List.Forall₂ (fun kv kw => Clean kv.1 ∧ kw.1 = kv.1 ∧ parseValue double kv.2 = .ok kw.2) d e := by
  induction d generalizing e with
  | nil => cases e <;> simp [parseFields]
  | cons kv d ih =>
    obtain ⟨k, v⟩ := kv
    simp only [parseFields, bind_ok_iff, Except.ok.injEq, ih, List.forall₂_cons_left_iff, protoText_ok_iff]
    constructor
    · intro h
      obtain ⟨_, ⟨hk, rfl⟩, w, hw, e', he, rfl⟩ := h
      exact ⟨(_, w), e', ⟨hk, rfl, hw⟩, he, rfl⟩
    · intro h
      obtain ⟨⟨_, w⟩, e', ⟨hk, rfl, hw⟩, he, rfl⟩ := h
      exact ⟨_, ⟨hk, rfl⟩, w, hw, e', he, rfl⟩

omit [Interp] in
theorem keys_of_parsed {p : Str × Json → Str × Json → Prop} (hp : ∀ kv kw, p kv kw → kw.1 = kv.1)
    {d e : List (Str × Json)} (h : List.Forall₂ p d e) : Dict.keys e = Dict.keys d := by
  induction h with
  | nil => rfl
  | cons hkv _ ih => exact congrArg₂ List.cons (hp _ _ hkv) ih

/-- **A parsed value is one a message holds.** -/
theorem parseValue_spec {v w : Json} (h : parseValue double v = .ok w) :
    NoInt w ∧ w.CleanText ∧ (v.WF → w.WF) := by
  induction v generalizing w with
  | null | bool | float =>
    cases h
    exact ⟨trivial, trivial, fun _ => trivial⟩
  | int i =>
    obtain ⟨f, _, h⟩ := bind_ok_iff.mp h
    cases h
    exact ⟨trivial, trivial, fun _ => trivial⟩
  | str s =>
    obtain ⟨t, ht, h⟩ := bind_ok_iff.mp h
    cases h
    obtain ⟨hs, rfl⟩ := protoText_ok_iff.mp ht
    exact ⟨trivial, Json.cleanText_str.mpr hs, fun _ => trivial⟩
  | arr xs ih =>
    obtain ⟨ys, hys, h⟩ := bind_ok_iff.mp h
    cases h
    have hitem : ∀ y ∈ ys, ∃ x ∈ xs, parseValue double x = .ok y := fun y hy =>
      forall₂_mem_left (parseItems_ok_iff.mp hys).flip hy
    refine ⟨noInt_arr.mpr fun y hy => ?_, Json.cleanText_arr.mpr fun y hy => ?_,
      fun hwf => Json.wf_arr.mpr fun y hy => ?_⟩
    all_goals obtain ⟨x, hx, hxy⟩ := hitem y hy
    · exact (ih x hx hxy).1
    · exact (ih x hx hxy).2.1
    · exact (ih x hx hxy).2.2 (Json.wf_arr.mp hwf x hx)
  | obj d ih =>
    obtain ⟨e, he, h⟩ := bind_ok_iff.mp h
    cases h
    have hfields := parseFields_ok_iff.mp he
    have hfield : ∀ kw ∈ e, ∃ kv ∈ d, Clean kv.1 ∧ kw.1 = kv.1 ∧ parseValue double kv.2 = .ok kw.2 := fun kw hkw =>
      forall₂_mem_left hfields.flip hkw
    refine ⟨noInt_obj.mpr fun kw hkw => ?_, Json.cleanText_obj.mpr ⟨fun kw hkw => ?_, fun kw hkw => ?_⟩, fun hwf => ?_⟩
    · obtain ⟨kv, hkv, _, _, hvalue⟩ := hfield kw hkw
      exact (ih kv hkv hvalue).1
    · obtain ⟨kv, _, hclean, hkey, _⟩ := hfield kw hkw
      exact hkey ▸ hclean
    · obtain ⟨kv, hkv, _, _, hvalue⟩ := hfield kw hkw
      exact (ih kv hkv hvalue).2.1
    · obtain ⟨hkeys, hvalues⟩ := Json.wf_obj.mp hwf
      refine Json.wf_obj.mpr ⟨(keys_of_parsed (fun _ _ h => h.2.1) hfields) ▸ hkeys, fun kw hkw => ?_⟩
      obtain ⟨kv, hkv, _, _, hvalue⟩ := hfield kw hkw
      exact (ih kv hkv hvalue).2.2 (hvalues kv hkv)

theorem struct_of_parseFields {d e : Dict Json} (hwf : (Json.obj d).WF) (h : parseFields double d = .ok e) :
    (Json.obj e).WF ∧ NoInt (.obj e) ∧ (Json.obj e).CleanText := by
  have hobj : parseValue double (.obj d) = .ok (.obj e) := by
    rw [parseValue, h]
    rfl
  obtain ⟨hnoInt, hclean, hkeep⟩ := parseValue_spec hobj
  exact ⟨hkeep hwf, hnoInt, hclean⟩

variable (double)

/-- `json_format.ParseDict`, into an empty `Struct`. -/
def parseDict (d : JsonDict) : Result Struct :=
  match h : parseFields double d.items with
  | .ok items => .ok ⟨items, (struct_of_parseFields d.wf h).1, (struct_of_parseFields d.wf h).2.1,
      (struct_of_parseFields d.wf h).2.2⟩
  | .error e => .error e

variable {double}

theorem parseDict_ok_iff {d : JsonDict} {s : Struct} :
    parseDict double d = .ok s ↔ parseFields double d.items = .ok s.items := by
  unfold parseDict
  split
  · rename_i items h
    obtain ⟨items', wf, noInt, clean⟩ := s
    constructor
    · intro heq
      cases heq
      exact h
    · intro heq
      cases Except.ok.inj (h.symm.trans heq)
      rfl
  · rename_i e h
    simp [h]

end

/-! ## Out of a `Struct` -/

mutual
/-- `json_format.MessageToDict`, on one value. -/
def jsonOfValue : Json → Result Json
  | .null => .ok .null
  | .bool b => .ok (.bool b)
  | .int i => .ok (.int i)
  | .float f =>
    if f.isFinite then .ok (.float f)
    else
      .error (.builtin .valueError (lit "Fail to serialize " ++ (if f = .nan then lit "NaN" else lit "Infinity") ++
        lit " for Value.number_value"))
  | .str s => .ok (.str s)
  | .arr xs => do
    let ys ← jsonOfItems xs
    .ok (.arr ys)
  | .obj d => do
    let e ← jsonOfFields d
    .ok (.obj e)

def jsonOfItems : List Json → Result (List Json)
  | [] => .ok []
  | x :: xs => do
    let y ← jsonOfValue x
    let ys ← jsonOfItems xs
    .ok (y :: ys)

def jsonOfFields : List (Str × Json) → Result (List (Str × Json))
  | [] => .ok []
  | (k, v) :: d => do
    let w ← jsonOfValue v
    let e ← jsonOfFields d
    .ok ((k, w) :: e)
end

theorem jsonOfItems_ok_iff {xs ys : List Json}
    (h : ∀ x ∈ xs, ∀ w, jsonOfValue x = .ok w ↔ FiniteFloats x ∧ w = x) :
    jsonOfItems xs = .ok ys ↔ (∀ x ∈ xs, FiniteFloats x) ∧ ys = xs := by
  induction xs generalizing ys with
  | nil => simp [jsonOfItems, eq_comm]
  | cons x xs ih =>
    simp only [jsonOfItems, bind_ok_iff, Except.ok.injEq, h x (by simp), ih fun y hy => h y (by simp [hy]),
      List.forall_mem_cons]
    constructor
    · intro h
      obtain ⟨_, ⟨hx, rfl⟩, _, ⟨hxs, rfl⟩, rfl⟩ := h
      exact ⟨⟨hx, hxs⟩, rfl⟩
    · intro h
      obtain ⟨⟨hx, hxs⟩, rfl⟩ := h
      exact ⟨x, ⟨hx, rfl⟩, xs, ⟨hxs, rfl⟩, rfl⟩

theorem jsonOfFields_ok_iff {d e : List (Str × Json)}
    (h : ∀ kv ∈ d, ∀ w, jsonOfValue kv.2 = .ok w ↔ FiniteFloats kv.2 ∧ w = kv.2) :
    jsonOfFields d = .ok e ↔ (∀ kv ∈ d, FiniteFloats kv.2) ∧ e = d := by
  induction d generalizing e with
  | nil => simp [jsonOfFields, eq_comm]
  | cons kv d ih =>
    obtain ⟨k, v⟩ := kv
    simp only [jsonOfFields, bind_ok_iff, Except.ok.injEq, h (k, v) (by simp), ih fun kw hkw => h kw (by simp [hkw]),
      List.forall_mem_cons]
    constructor
    · intro h
      obtain ⟨_, ⟨hv, rfl⟩, _, ⟨hd, rfl⟩, rfl⟩ := h
      exact ⟨⟨hv, hd⟩, rfl⟩
    · intro h
      obtain ⟨⟨hv, hd⟩, rfl⟩ := h
      exact ⟨v, ⟨hv, rfl⟩, d, ⟨hd, rfl⟩, rfl⟩

/-- **A value of a message is read as it is**, where its numbers are finite. -/
theorem jsonOfValue_ok_iff {v w : Json} : jsonOfValue v = .ok w ↔ FiniteFloats v ∧ w = v := by
  induction v generalizing w with
  | null | bool | int | str => exact ⟨fun h => ⟨trivial, by cases h; rfl⟩, fun h => by rw [h.2]; rfl⟩
  | float f =>
    rw [jsonOfValue]
    split
    · rename_i hfinite
      exact ⟨fun h => ⟨hfinite, by cases h; rfl⟩, fun h => by rw [h.2]⟩
    · rename_i hfinite
      exact ⟨fun h => (by cases h), fun h => absurd h.1 hfinite⟩
  | arr xs ih =>
    simp only [jsonOfValue, bind_ok_iff, Except.ok.injEq, jsonOfItems_ok_iff fun x hx w => ih x hx, finiteFloats_arr]
    constructor
    · intro h
      obtain ⟨_, ⟨hxs, rfl⟩, rfl⟩ := h
      exact ⟨hxs, rfl⟩
    · intro h
      obtain ⟨hxs, rfl⟩ := h
      exact ⟨xs, ⟨hxs, rfl⟩, rfl⟩
  | obj d ih =>
    simp only [jsonOfValue, bind_ok_iff, Except.ok.injEq, jsonOfFields_ok_iff fun kv hkv w => ih kv hkv, finiteFloats_obj]
    constructor
    · intro h
      obtain ⟨_, ⟨hd, rfl⟩, rfl⟩ := h
      exact ⟨hd, rfl⟩
    · intro h
      obtain ⟨hd, rfl⟩ := h
      exact ⟨d, ⟨hd, rfl⟩, rfl⟩

theorem jsonOfFields_eq_ok_iff {d e : Dict Json} : jsonOfFields d = .ok e ↔ FiniteFloats (.obj d) ∧ e = d := by
  rw [jsonOfFields_ok_iff fun _ _ _ => jsonOfValue_ok_iff, finiteFloats_obj]

theorem wf_of_jsonOfFields {d e : Dict Json} (hwf : (Json.obj d).WF) (h : jsonOfFields d = .ok e) : (Json.obj e).WF := by
  rw [(jsonOfFields_eq_ok_iff.mp h).2]
  exact hwf

/-- `json_format.MessageToDict` -/
def messageToDict (s : Struct) : Result JsonDict :=
  match h : jsonOfFields s.items with
  | .ok items => .ok ⟨items, wf_of_jsonOfFields s.wf h⟩
  | .error e => .error e

theorem messageToDict_ok_iff {s : Struct} {d : JsonDict} :
    messageToDict s = .ok d ↔ FiniteFloats (.obj s.items) ∧ d = ⟨s.items, s.wf⟩ := by
  obtain ⟨items, wf⟩ := d
  unfold messageToDict
  split
  · rename_i items' h
    obtain ⟨hfinite, rfl⟩ := jsonOfFields_eq_ok_iff.mp h
    simp [hfinite, eq_comm]
  · rename_i e h
    have hne : ¬ FiniteFloats (.obj s.items) := fun hf => by
      rw [jsonOfFields_eq_ok_iff.mpr ⟨hf, rfl⟩] at h
      cases h
    simp [hne]

/-! ## There and back -/

/-- `float(i)` is exact on integers of at most 53 bits. -/
def ExactDouble (double : Int → Result PyFloat) : Prop := ∀ i : Int, i.natAbs ≤ 2 ^ 53 → double i = .ok (.finite i)

mutual
/-- The value with every integer a float. -/
def floats : Json → Json
  | .int i => .float (.finite i)
  | .arr xs => .arr (floatsItems xs)
  | .obj d => .obj (floatsFields d)
  | .null => .null
  | .bool b => .bool b
  | .float f => .float f
  | .str s => .str s

def floatsItems : List Json → List Json
  | [] => []
  | x :: xs => floats x :: floatsItems xs

def floatsFields : List (Str × Json) → List (Str × Json)
  | [] => []
  | (k, v) :: d => (k, floats v) :: floatsFields d
end

theorem floatsItems_eq (xs : List Json) : floatsItems xs = xs.map floats := by
  induction xs with
  | nil => rfl
  | cons x xs ih => rw [floatsItems, ih, List.map_cons]

theorem floatsFields_eq (d : List (Str × Json)) : floatsFields d = d.map fun kv => (kv.1, floats kv.2) := by
  induction d with
  | nil => rfl
  | cons kv d ih =>
    obtain ⟨k, v⟩ := kv
    rw [floatsFields, ih, List.map_cons]

theorem floats_arr (xs : List Json) : floats (.arr xs) = .arr (xs.map floats) := by rw [floats, floatsItems_eq]

theorem floats_obj (d : Dict Json) : floats (.obj d) = .obj (d.map fun kv => (kv.1, floats kv.2)) := by
  rw [floats, floatsFields_eq]

/-- What has no integer is as it was. -/
theorem floats_of_noInt {v : Json} (h : NoInt v) : floats v = v := by
  induction v with
  | null | bool | float | str => rfl
  | int i => exact h.elim
  | arr xs ih =>
    rw [floats_arr, List.map_congr_left fun x hx => ih x hx (noInt_arr.mp h x hx), List.map_id']
  | obj d ih =>
    rw [floats_obj, List.map_congr_left fun kv hkv => by rw [ih kv hkv (noInt_obj.mp h kv hkv)], List.map_id']

theorem finiteFloats_floats {v : Json} (h : FiniteFloats v) : FiniteFloats (floats v) := by
  induction v with
  | null | bool | float | str => exact h
  | int i => exact (rfl : PyFloat.isFinite (.finite i) = true)
  | arr xs ih =>
    rw [floats_arr, finiteFloats_arr]
    intro y hy
    obtain ⟨x, hx, rfl⟩ := List.mem_map.mp hy
    exact ih x hx (finiteFloats_arr.mp h x hx)
  | obj d ih =>
    rw [floats_obj, finiteFloats_obj]
    intro kw hkw
    obtain ⟨kv, hkv, rfl⟩ := List.mem_map.mp hkw
    exact ih kv hkv (finiteFloats_obj.mp h kv hkv)

/-- **What a `Struct` keeps of a value**: all of it, with floats for integers. -/
theorem parseValue_floats [Interp] {double : Int → Result PyFloat} (hdouble : ExactDouble double) {v : Json}
    (hclean : v.CleanText) (hints : v.IntsWithin (2 ^ 53)) : parseValue double v = .ok (floats v) := by
  induction v with
  | null | bool | float => rfl
  | int i =>
    rw [parseValue, hdouble i (Json.intsWithin_int.mp hints)]
    rfl
  | str s =>
    rw [parseValue, protoText_ok_iff.mpr ⟨Json.cleanText_str.mp hclean, rfl⟩]
    rfl
  | arr xs ih =>
    have hitems : parseItems double xs = .ok (xs.map floats) := by
      rw [parseItems_ok_iff, List.forall₂_map_right_iff, List.forall₂_same]
      exact fun x hx => ih x hx (Json.cleanText_arr.mp hclean x hx) (Json.intsWithin_arr.mp hints x hx)
    rw [parseValue, hitems, floats_arr]
    rfl
  | obj d ih =>
    obtain ⟨hkeys, hvalues⟩ := Json.cleanText_obj.mp hclean
    have hfields : parseFields double d = .ok (d.map fun kv => (kv.1, floats kv.2)) := by
      rw [parseFields_ok_iff, List.forall₂_map_right_iff, List.forall₂_same]
      exact fun kv hkv => ⟨hkeys kv hkv, rfl, ih kv hkv (hvalues kv hkv) (Json.intsWithin_obj.mp hints kv hkv)⟩
    rw [parseValue, hfields, floats_obj]
    rfl

end Ca2a
