/-
`ca2a_runtime.canonical`: RFC 8785 canonical JSON for the value types the
runtime signs, and that it is a lossless canonical form.

`serialize` follows the source: keys are sorted by their UTF-16BE octets,
strings escape control characters only, integers outside the safe domain
and floats are refused. `serialize_eq` says what it computes, the sorted
representative of the value printed in the style `jcs`, so that everything
else is a fact about printing (`Py.loads_print`).

The recursion limit of the interpreter is not in these definitions: they say
what is computed where the stack suffices. `CanonicalStack` counts the calls.
-/
import Ca2a.Py.Except
import Ca2a.Py.RoundTrip

namespace Ca2a

open Py

variable {ε : Type} [Interp]

/-- `_MAX_SAFE_INTEGER`, 2**53 - 1. -/
def maxSafeInteger : Nat := 9007199254740991

/-- `_SHORT_ESCAPES` -/
def shortEscapes : Nat → Option Str
  | 0x08 => some (lit "\\b")
  | 0x09 => some (lit "\\t")
  | 0x0A => some (lit "\\n")
  | 0x0C => some (lit "\\f")
  | 0x0D => some (lit "\\r")
  | 0x22 => some (lit "\\\"")
  | 0x5C => some (lit "\\\\")
  | _ => none

def escapeChar (c : CodePoint) : Str :=
  match shortEscapes c.val with
  | some e => e
  | none => if c.val < 0x20 then lit "\\u" ++ hexN 4 c.val else [c]

/-- `_escape_string` -/
def escapeString (s : Str) : Str := cp '"' :: s.flatMap escapeChar ++ [cp '"']

/-- The text of the error for an integer outside the safe domain. -/
def unsafeIntegerText (i : Int) : Str :=
  lit "integer " ++ strInt i ++ lit " is outside the safe integer domain RFC 8785 can serialize (+/-" ++
    decimal maxSafeInteger ++ lit "); emitting it verbatim would diverge from a conforming verifier, and a verifier " ++
    lit "that applies the ECMAScript conversion would accept one signature for two distinct values"

/-- `sorted(d.items(), key=lambda kv: kv[0].encode("utf-16-be"))` -/
def sortedItems {α : Type} (d : Dict α) : Except (Raised ε) (Dict α) := do
  let keyed ← d.mapM fun kv => do
    let k ← utf16be kv.1
    .ok (k, kv)
  .ok ((keyed.insertionSort fun a b => a.1 ≤ b.1).map (·.2))

mutual
/-- `_serialize`. A field's value is serialized when its turn comes in key order, so the
fields' results are sorted before the first of their errors is raised. -/
def serialize : Json → Except (Raised ε) Str
  | .null => .ok (lit "null")
  | .bool true => .ok (lit "true")
  | .bool false => .ok (lit "false")
  | .str s => .ok (escapeString s)
  | .int i =>
    if -(maxSafeInteger : Int) ≤ i ∧ i ≤ maxSafeInteger then .ok (strInt i)
    else .error (.builtin .valueError (unsafeIntegerText i))
  | .float _ => .error (.builtin .typeError (lit "RFC 8785 canonicalization of floats is not supported in cA2A"))
  | .arr xs => do
    let parts ← serializeItems xs
    .ok (cp '[' :: join (lit ",") parts ++ [cp ']'])
  | .obj d => do
    let items ← sortedItems (serializeFields d)
    let parts ← items.mapM fun kv => do
      let v ← kv.2
      .ok (escapeString kv.1 ++ lit ":" ++ v)
    .ok (cp '{' :: join (lit ",") parts ++ [cp '}'])

def serializeItems : List Json → Except (Raised ε) (List Str)
  | [] => .ok []
  | x :: xs => do
    let s ← serialize x
    let ss ← serializeItems xs
    .ok (s :: ss)

def serializeFields : List (Str × Json) → Dict (Except (Raised ε) Str)
  | [] => []
  | (k, v) :: d => (k, serialize v) :: serializeFields d
end

/-- `canonicalize` -/
def canonicalize (j : Json) : Except (Raised ε) Bytes := do
  let s ← serialize j
  utf8 s

/-! ## What `serialize` computes -/

/-- The style of the canonical form. -/
def jcs : Style where
  esc := escapeChar
  comma := lit ","
  colon := lit ":"

/-- What `canonicalize` accepts. -/
structure Canonical (j : Json) : Prop where
  noFloat : j.NoFloat
  ints : j.IntsWithin maxSafeInteger
  clean : j.CleanText

section
omit [Interp]

@[simp] theorem canonical_null : Canonical .null := ⟨trivial, trivial, trivial⟩

@[simp] theorem canonical_bool (b : Bool) : Canonical (.bool b) := ⟨trivial, trivial, trivial⟩

@[simp] theorem canonical_int {i : Int} : Canonical (.int i) ↔ i.natAbs ≤ maxSafeInteger :=
  ⟨fun h => Json.intsWithin_int.mp h.ints, fun h => ⟨trivial, Json.intsWithin_int.mpr h, trivial⟩⟩

@[simp] theorem not_canonical_float {f : PyFloat} : ¬ Canonical (.float f) := fun h => h.noFloat

@[simp] theorem canonical_str {s : Str} : Canonical (.str s) ↔ Clean s :=
  ⟨fun h => Json.cleanText_str.mp h.clean, fun h => ⟨trivial, trivial, Json.cleanText_str.mpr h⟩⟩

@[simp] theorem canonical_arr {xs : List Json} : Canonical (.arr xs) ↔ ∀ x ∈ xs, Canonical x := by
  constructor
  · intro h x hx
    exact ⟨Json.noFloat_arr.mp h.noFloat x hx, Json.intsWithin_arr.mp h.ints x hx, Json.cleanText_arr.mp h.clean x hx⟩
  · intro h
    exact ⟨Json.noFloat_arr.mpr fun x hx => (h x hx).noFloat, Json.intsWithin_arr.mpr fun x hx => (h x hx).ints,
      Json.cleanText_arr.mpr fun x hx => (h x hx).clean⟩

@[simp] theorem canonical_obj {d : List (Str × Json)} :
    Canonical (.obj d) ↔ ∀ kv ∈ d, Clean kv.1 ∧ Canonical kv.2 := by
  constructor
  · intro h kv hkv
    obtain ⟨hk, hv⟩ := Json.cleanText_obj.mp h.clean
    exact ⟨hk kv hkv, Json.noFloat_obj.mp h.noFloat kv hkv, Json.intsWithin_obj.mp h.ints kv hkv, hv kv hkv⟩
  · intro h
    exact ⟨Json.noFloat_obj.mpr fun kv hkv => (h kv hkv).2.noFloat, Json.intsWithin_obj.mpr fun kv hkv => (h kv hkv).2.ints,
      Json.cleanText_obj.mpr ⟨fun kv hkv => (h kv hkv).1, fun kv hkv => (h kv hkv).2.clean⟩⟩

end

omit [Interp] in
theorem unitBytes_le_iff {s t : Str} :
    unitBytes (utf16Units s) ≤ unitBytes (utf16Units t) ↔ utf16Units s ≤ utf16Units t := by
  have h := unitBytes_lt_iff (fun _ (h : _ ∈ utf16Units t) => utf16Units_lt h) (fun _ (h : _ ∈ utf16Units s) => utf16Units_lt h)
  exact List.not_lt.symm.trans ((not_congr h).trans not_lt)

theorem serializeFields_eq (d : List (Str × Json)) :
    serializeFields (ε := ε) d = d.map fun kv => (kv.1, serialize kv.2) := by
  induction d with
  | nil => rfl
  | cons kv d ih => simp [serializeFields, ih]

theorem serializeItems_eq (xs : List Json) : serializeItems (ε := ε) xs = xs.mapM serialize := by
  induction xs with
  | nil => rfl
  | cons x xs ih => simp [serializeItems, ih]; rfl

theorem utf16be_clean {s : Str} (h : Clean s) : utf16be (ε := ε) s = .ok (unitBytes (utf16Units s)) := by
  rw [utf16be, utf16be?_eq_some_iff.mpr ⟨h, rfl⟩]

theorem utf16be_ok {s : Str} {b : Bytes} (h : utf16be (ε := ε) s = .ok b) : Clean s := by
  rw [utf16be] at h
  split at h
  · rename_i hb; exact (utf16be?_eq_some_iff.mp hb).1
  · cases h

/-- Sorting by the UTF-16BE octets of the keys is sorting by their code units. -/
theorem sortedItems_eq {α : Type} {d : Dict α} (h : ∀ kv ∈ d, Clean kv.1) :
    sortedItems (ε := ε) d = .ok (Json.sortKeys d) := by
  have hk : d.mapM (fun kv => do let k ← utf16be (ε := ε) kv.1; Except.ok (k, kv)) =
      .ok (d.map fun kv => (unitBytes (utf16Units kv.1), kv)) :=
    mapM_ok fun kv hkv => by simp [utf16be_clean (h kv hkv), bind, Except.bind]
  have hs := List.map_insertionSort (fun a b : Str × α => utf16Units a.1 ≤ utf16Units b.1)
    (fun a b : Bytes × Str × α => a.1 ≤ b.1) (fun kv => (unitBytes (utf16Units kv.1), kv)) d
    fun a _ b _ => unitBytes_le_iff.symm
  rw [sortedItems, hk]
  simp only [bind, Except.bind, ← hs, List.map_map]
  simp [Function.comp_def, Json.sortKeys]

theorem sortedItems_clean {α : Type} {d e : Dict α} (h : sortedItems (ε := ε) d = .ok e) : ∀ kv ∈ d, Clean kv.1 := by
  intro kv hkv
  simp only [sortedItems, bind, Except.bind] at h
  split at h
  · cases h
  · rename_i keyed hk
    obtain ⟨p, _, hp⟩ := forall₂_mem_left (mapM_ok_iff.mp hk) hkv
    split at hp
    · cases hp
    · rename_i hu; exact utf16be_ok hu

/-- **What `serialize` computes** on what `canonicalize` accepts. -/
theorem serialize_eq {j : Json} (hj : Canonical j) : serialize (ε := ε) j = .ok (jcs.print j.norm) := by
  induction j with
  | null => rfl
  | bool b => cases b <;> rfl
  | int i =>
    have := canonical_int.mp hj
    rw [serialize, if_pos (by omega)]
    rfl
  | float f => exact absurd hj not_canonical_float
  | str s => rfl
  | arr xs ih =>
    have hx : ∀ x ∈ xs, serialize (ε := ε) x = .ok (jcs.print x.norm) := fun x hx =>
      ih x hx (canonical_arr.mp hj x hx)
    rw [serialize, serializeItems_eq, mapM_ok hx, ok_bind, Json.norm_arr, Style.print, Style.printItems_eq,
      List.map_map]
    rfl
  | obj d ih =>
    have hd := canonical_obj.mp hj
    have hs : ∀ kv ∈ d, serialize (ε := ε) kv.2 = .ok (jcs.print kv.2.norm) := fun kv hkv =>
      ih kv hkv (hd kv hkv).2
    have hf : serializeFields (ε := ε) d =
        (d.map fun kv => (kv.1, kv.2.norm)).map fun kv => (kv.1, .ok (jcs.print kv.2)) := by
      rw [serializeFields_eq, List.map_map]
      exact List.map_congr_left fun kv hkv => by simp [hs kv hkv]
    have hsort : Json.sortKeys (serializeFields (ε := ε) d) =
        (Json.sortKeys (d.map fun kv => (kv.1, kv.2.norm))).map fun kv => (kv.1, .ok (jcs.print kv.2)) := by
      rw [hf, Json.sortKeys_map]
    have hclean : ∀ kv ∈ serializeFields (ε := ε) d, Clean kv.1 := by
      intro kv hkv
      rw [serializeFields_eq] at hkv
      obtain ⟨kv', hkv', rfl⟩ := List.mem_map.mp hkv
      exact (hd kv' hkv').1
    rw [serialize, sortedItems_eq hclean, ok_bind, hsort, List.mapM_map,
      mapM_ok (g := jcs.field) (fun kv _ => by simp [Style.field]; rfl), ok_bind, Json.norm_obj, Style.print,
      Style.printFields_eq]
    rfl

/-! ## What `canonicalize` accepts -/

omit [Interp] in
theorem shortEscapes_none {n : Nat} (h : 0x5D ≤ n) : shortEscapes n = none := by
  unfold shortEscapes
  split <;> first | omega | rfl

omit [Interp] in
theorem escapeChar_clean_iff {c : CodePoint} : Clean (escapeChar c) ↔ c.scalar := by
  by_cases hc : c.val < 0xD800
  · refine iff_of_true ?_ (scalar_of_lt hc)
    unfold escapeChar
    split
    · rename_i e he
      unfold shortEscapes at he
      split at he <;> first | (simp only [Option.some.injEq] at he; subst he; exact clean_lit _) | cases he
    · split
      · rw [clean_append]
        exact ⟨clean_lit _, clean_of_ascii fun _ => hexN_val_lt⟩
      · simp [scalar_of_lt hc]
  · rw [escapeChar, shortEscapes_none (by omega)]
    simp only [if_neg (show ¬ c.val < 0x20 by omega), clean_cons, clean_nil, and_true]

omit [Interp] in
theorem escapeString_clean_iff {s : Str} : Clean (escapeString s) ↔ Clean s := by
  simp only [escapeString, List.cons_append, clean_cons, clean_append, clean_flatMap, scalar_cp, clean_nil, true_and,
    and_true, escapeChar_clean_iff]
  exact Iff.rfl

/-- Only what `Canonical` describes serializes to text that can be encoded. -/
theorem canonical_of_serialize {j : Json} {s : Str} (h : serialize (ε := ε) j = .ok s) (hs : Clean s) : Canonical j := by
  induction j generalizing s with
  | null => exact canonical_null
  | bool b => exact canonical_bool b
  | int i =>
    rw [serialize] at h
    split at h
    · exact canonical_int.mpr (by omega)
    · cases h
  | float f => simp [serialize] at h
  | str t =>
    simp only [serialize, Except.ok.injEq] at h
    subst h
    exact canonical_str.mpr (escapeString_clean_iff.mp hs)
  | arr xs ih =>
    rw [serialize, bind_ok_iff] at h
    obtain ⟨parts, hp, h⟩ := h
    simp only [Except.ok.injEq] at h
    subst h
    rw [serializeItems_eq, mapM_ok_iff] at hp
    rw [List.cons_append, clean_cons, clean_append, clean_join (clean_lit _)] at hs
    refine canonical_arr.mpr fun x hx => ?_
    obtain ⟨t, ht, hxt⟩ := forall₂_mem_left hp hx
    exact ih x hx hxt (hs.2.1 t ht)
  | obj d ih =>
    rw [serialize, bind_ok_iff] at h
    obtain ⟨items, hi, h⟩ := h
    rw [bind_ok_iff] at h
    obtain ⟨parts, hp, h⟩ := h
    simp only [Except.ok.injEq] at h
    subst h
    have hk := sortedItems_clean hi
    rw [sortedItems_eq hk] at hi
    simp only [Except.ok.injEq] at hi
    subst hi
    rw [mapM_ok_iff] at hp
    rw [List.cons_append, clean_cons, clean_append, clean_join (clean_lit _)] at hs
    rw [serializeFields_eq] at hk hp
    refine canonical_obj.mpr fun kv hkv => ⟨hk _ (List.mem_map.mpr ⟨kv, hkv, rfl⟩), ?_⟩
    have hmem : (kv.1, serialize (ε := ε) kv.2) ∈ Json.sortKeys (d.map fun kv => (kv.1, serialize kv.2)) :=
      Json.mem_sortKeys.mpr (List.mem_map.mpr ⟨kv, hkv, rfl⟩)
    obtain ⟨t, ht, hkt⟩ := forall₂_mem_left hp hmem
    rw [bind_ok_iff] at hkt
    obtain ⟨v, hv, hkt⟩ := hkt
    simp only [Except.ok.injEq] at hkt
    subst hkt
    have hc := hs.2.1 _ ht
    rw [clean_append] at hc
    exact ih kv hkv hv hc.2

theorem utf8_ok_iff {s : Str} {b : Bytes} : utf8 (ε := ε) s = .ok b ↔ utf8? s = some b := by
  unfold utf8
  split <;> simp_all

theorem utf8_spec {exc : Raised ε → Prop} (h : ∀ t, exc (.builtin .unicodeEncodeError t)) (s : Str) :
    Spec (utf8 s) (fun _ => True) exc := by
  unfold utf8
  split
  · exact trivial
  · exact h _

/-- **What `canonicalize` accepts, and the bytes it gives.** -/
theorem canonicalize_ok_iff {j : Json} {b : Bytes} :
    canonicalize (ε := ε) j = .ok b ↔ Canonical j ∧ utf8? (jcs.print j.norm) = some b := by
  rw [canonicalize, bind_ok_iff]
  constructor
  · rintro ⟨s, hs, hb⟩
    rw [utf8_ok_iff] at hb
    have hj := canonical_of_serialize hs (utf8?_isSome_iff.mp ⟨b, hb⟩)
    rw [serialize_eq hj] at hs
    cases hs
    exact ⟨hj, hb⟩
  · rintro ⟨hj, hb⟩
    exact ⟨_, serialize_eq hj, utf8_ok_iff.mpr hb⟩

theorem jcs_print_clean {j : Json} (hj : Canonical j) : Clean (jcs.print j.norm) :=
  print_clean (fun _ hc => escapeChar_clean_iff.mpr hc) (clean_lit _) (clean_lit _) (Json.noFloat_norm.mpr hj.noFloat)
    (Json.cleanText_norm.mpr hj.clean)

theorem exists_canonicalize_iff {j : Json} : (∃ b, canonicalize (ε := ε) j = .ok b) ↔ Canonical j := by
  simp only [canonicalize_ok_iff]
  constructor
  · rintro ⟨b, hj, _⟩; exact hj
  · intro hj
    obtain ⟨b, hb⟩ := utf8?_isSome_iff.mpr (jcs_print_clean hj)
    exact ⟨b, hj, hb⟩

/-! ## What it raises -/

/-- What `canonicalize` may raise on `j`: a `TypeError` is about a float. -/
def CanonicalError (j : Json) : Raised ε → Prop
  | .builtin k _ => k.isValueError = true ∨ k = .typeError ∧ ¬ j.NoFloat
  | .app _ => False

omit [Interp] in
theorem CanonicalError.mono {j j' : Json} (h : j'.NoFloat → j.NoFloat) (e : Raised ε) (he : CanonicalError j e) :
    CanonicalError j' e := by
  cases e with
  | builtin k t => exact he.imp_right fun hk => ⟨hk.1, fun hn => hk.2 (h hn)⟩
  | app e => exact he

theorem utf16be_spec (j : Json) (s : Str) : Spec (utf16be (ε := ε) s) (fun _ => True) (CanonicalError j) := by
  unfold utf16be
  split
  · exact trivial
  · exact .inl rfl

theorem sortedItems_spec {α : Type} (j : Json) (d : Dict α) :
    Spec (sortedItems (ε := ε) d) (fun items => ∀ kv ∈ items, kv ∈ d) (CanonicalError j) := by
  cases h : sortedItems (ε := ε) d with
  | ok items =>
    rw [sortedItems_eq (sortedItems_clean h)] at h
    cases h
    exact fun kv hkv => Json.mem_sortKeys.mp hkv
  | error e =>
    have hs : Spec (sortedItems (ε := ε) d) (fun _ => True) (CanonicalError j) := by
      unfold sortedItems
      refine (Spec.mapM fun kv _ => ?_).bind fun _ _ => trivial
      exact (utf16be_spec j kv.1).bind fun _ _ => trivial
    exact hs.of_error h

theorem serialize_spec (j : Json) : Spec (serialize (ε := ε) j) (fun _ => True) (CanonicalError j) := by
  induction j with
  | null => exact trivial
  | bool b => cases b <;> exact trivial
  | int i =>
    rw [serialize]
    split
    · exact trivial
    · exact .inl rfl
  | float f => exact .inr ⟨rfl, fun h => h⟩
  | str s => exact trivial
  | arr xs ih =>
    rw [serialize, serializeItems_eq]
    refine (Spec.mapM fun x hx => (ih x hx).mono (fun _ _ => trivial) ?_).bind fun _ _ => trivial
    exact CanonicalError.mono fun h => Json.noFloat_arr.mp h x hx
  | obj d ih =>
    rw [serialize, serializeFields_eq]
    refine (sortedItems_spec (.obj d) _).bind fun items hitems => ?_
    refine (Spec.mapM fun kv hkv => ?_).bind fun _ _ => trivial
    obtain ⟨kv', hkv', rfl⟩ := List.mem_map.mp (hitems kv hkv)
    refine ((ih kv' hkv').mono (fun _ _ => trivial) ?_).bind fun _ _ => trivial
    exact CanonicalError.mono fun h => Json.noFloat_obj.mp h kv' hkv'

theorem canonicalize_spec (j : Json) : Spec (canonicalize (ε := ε) j) (fun _ => True) (CanonicalError j) := by
  exact (serialize_spec j).bind fun s _ => utf8_spec (fun _ => .inl rfl) s

/-- So the runtime's own errors are not among them. -/
theorem canonicalize_raises {exc : Raised ε → Prop} (h : ∀ k t, exc (.builtin k t)) (j : Json) :
    Spec (canonicalize (ε := ε) j) (fun _ => True) exc := by
  refine (canonicalize_spec j).mono (fun _ _ => trivial) fun e he => ?_
  cases e with
  | builtin k t => exact h k t
  | app e => exact he.elim

/-! ## Reading the canonical form back -/

omit [Interp] in
/-- The decoder reads the canonical style. -/
theorem jcs_reads : jcs.Reads where
  esc_scan := by
    intro c hc n r
    simp only [jcs, escapeChar]
    split
    · rename_i e he
      unfold shortEscapes at he
      split at he <;> cases he
      case h_1 h => exact scanString?_short (e := cp 'b') (by decide) (by rw [show c = 0x08 from Fin.ext h]; decide) n r
      case h_2 h => exact scanString?_short (e := cp 't') (by decide) (by rw [show c = 0x09 from Fin.ext h]; decide) n r
      case h_3 h => exact scanString?_short (e := cp 'n') (by decide) (by rw [show c = 0x0A from Fin.ext h]; decide) n r
      case h_4 h => exact scanString?_short (e := cp 'f') (by decide) (by rw [show c = 0x0C from Fin.ext h]; decide) n r
      case h_5 h => exact scanString?_short (e := cp 'r') (by decide) (by rw [show c = 0x0D from Fin.ext h]; decide) n r
      case h_6 h => exact scanString?_short (e := cp '"') (by decide) (by rw [show c = cp '"' from Fin.ext h]; decide) n r
      case h_7 h => exact scanString?_short (e := cp '\\') (by decide) (by rw [show c = cp '\\' from Fin.ext h]; decide) n r
    · rename_i hn
      split
      · exact scanString?_escape (scanEscape?_unit (by omega) hc r) n
      · refine scanString?_plain (fun h => ?_) (fun h => ?_) (by omega) n r <;> rw [h] at hn <;> simp [shortEscapes] at hn
  esc_ne := by
    intro c
    simp only [jcs, escapeChar]
    split
    · rename_i e he
      unfold shortEscapes at he
      split at he <;> cases he <;> simp [lit]
    · split <;> simp [lit]
  comma_eq := ⟨[], rfl, by simp⟩
  colon_eq := ⟨[], rfl, by simp⟩

omit [Interp] in
theorem canonical_norm {j : Json} : Canonical j.norm ↔ Canonical j :=
  ⟨fun h => ⟨Json.noFloat_norm.mp h.noFloat, Json.intsWithin_norm.mp h.ints, Json.cleanText_norm.mp h.clean⟩,
    fun h => ⟨Json.noFloat_norm.mpr h.noFloat, Json.intsWithin_norm.mpr h.ints, Json.cleanText_norm.mpr h.clean⟩⟩

omit [Interp] in
theorem Canonical.printable {j : Json} (hj : Canonical j) (hw : j.WF) : Printable j :=
  ⟨hw, hj.noFloat, hj.clean, maxSafeInteger,
    lt_of_lt_of_le (by decide : maxSafeInteger < 10 ^ 16) (Nat.pow_le_pow_right (by decide) (by decide)), hj.ints⟩

/-- Parsing the canonical bytes gives the sorted representative, whatever is done with the
items of an object as long as distinct keys are left alone. -/
theorem loads_canonicalize {hook : PairsHook ε} (hh : ∀ d, (Dict.keys d).Nodup → hook d = .ok (.obj d)) {j : Json}
    (hw : j.WF) {b : Bytes} (h : canonicalize (ε := ε) j = .ok b) : loadsUtf8 hook b = .ok j.norm := by
  obtain ⟨hj, hb⟩ := canonicalize_ok_iff.mp h
  exact loadsUtf8_print jcs_reads hook hh ((canonical_norm.mpr hj).printable (Json.wf_norm.mpr hw)) hb

theorem canonicalize_norm {j : Json} {b : Bytes} (h : canonicalize (ε := ε) j = .ok b) :
    canonicalize (ε := ε) j.norm = .ok b := by
  obtain ⟨hj, hb⟩ := canonicalize_ok_iff.mp h
  exact canonicalize_ok_iff.mpr ⟨canonical_norm.mpr hj, by rw [Json.norm_norm]; exact hb⟩

/-- **Equal bytes mean equal values.** -/
theorem same_of_canonicalize {v w : Json} (hv : v.WF) (hw : w.WF) {b : Bytes}
    (h : canonicalize (ε := ε) v = .ok b) (h' : canonicalize (ε := ε) w = .ok b) : Json.Same v w := by
  have := (loads_canonicalize dictHook_nodup hv h).symm.trans (loads_canonicalize dictHook_nodup hw h')
  simp only [Except.ok.injEq] at this
  exact Json.same_of_norm_eq hw this

/-- Equal values have equal bytes: insertion order does not matter. -/
theorem canonicalize_of_same {v w : Json} (hv : v.WF) (hw : w.WF) {b : Bytes}
    (h : canonicalize (ε := ε) v = .ok b) (hs : Json.Same v w) : canonicalize (ε := ε) w = .ok b := by
  obtain ⟨hj, hb⟩ := canonicalize_ok_iff.mp h
  have hn := Json.norm_eq_of_same hv hw hj.clean hs
  exact canonicalize_ok_iff.mpr ⟨canonical_norm.mp (hn ▸ canonical_norm.mpr hj), hn ▸ hb⟩

end Ca2a
