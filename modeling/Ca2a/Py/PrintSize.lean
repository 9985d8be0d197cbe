/-
How long printed JSON is: the octets of `json.dumps` are its code points,
UTF-8 needs at most four octets for each, and the order of a dictionary does
not change the length.
-/
import Ca2a.Py.RoundTrip

namespace Py

/-- All code points are ASCII. -/
def Ascii (s : Str) : Prop := ∀ c ∈ s, c.val < 0x80

instance (s : Str) : Decidable (Ascii s) := List.decidableBAll _ s

section
variable {s t : Str}

@[simp] theorem ascii_nil : Ascii [] := by simp [Ascii]

@[simp] theorem ascii_cons {c : CodePoint} : Ascii (c :: s) ↔ c.val < 0x80 ∧ Ascii s := by simp [Ascii]

@[simp] theorem ascii_append : Ascii (s ++ t) ↔ Ascii s ∧ Ascii t := by simp [Ascii, or_imp, forall_and]

theorem ascii_flatMap {f : CodePoint → Str} (h : ∀ c ∈ s, Ascii (f c)) : Ascii (s.flatMap f) := by
  intro d hd
  obtain ⟨c, hc, hd⟩ := List.mem_flatMap.mp hd
  exact h c hc d hd

theorem ascii_join {sep : Str} {l : List Str} (hs : Ascii sep) (h : ∀ s ∈ l, Ascii s) : Ascii (join sep l) := by
  cases l with
  | nil => simp [join]
  | cons x xs =>
    rw [join, ascii_append]
    refine ⟨h x (by simp), ?_⟩
    intro d hd
    obtain ⟨y, hy, hd⟩ := List.mem_flatMap.mp hd
    exact (ascii_append.mpr ⟨hs, h y (by simp [hy])⟩) d hd

end

theorem asciiEsc_ascii (c : CodePoint) : Ascii (asciiEsc c) := by
  have hx : ∀ n, Ascii (hexN 4 n) := fun n _ => hexN_val_lt
  have hu : Ascii (lit "\\u") := by decide
  unfold asciiEsc
  split_ifs
  · decide
  · decide
  · decide
  · decide
  · decide
  · decide
  · decide
  · rename_i h
    simp only [ascii_cons, ascii_nil, and_true]
    omega
  · simp [hx, hu]
  · simp [hx, hu]

variable [Interp]

/-- `json.dumps` writes ASCII. -/
theorem dumps_ascii {j : Json} (hj : j.NoFloat) : Ascii (dumps j) := by
  have hquote : ∀ s, Ascii (dumpsStyle.quote s) := fun s => by
    rw [Style.quote, List.cons_append, ascii_cons, ascii_append]
    exact ⟨by decide, ascii_flatMap fun c _ => asciiEsc_ascii c, by decide⟩
  unfold dumps
  induction j with
  | null => exact (by decide : Ascii (lit "null"))
  | bool b => cases b <;> first | exact (by decide : Ascii (lit "true")) | exact (by decide : Ascii (lit "false"))
  | int i => exact fun c hc => strInt_val_lt hc
  | float f => exact absurd hj (by simp [Json.NoFloat, Json.All])
  | str s => exact hquote s
  | arr xs ih =>
    rw [Style.print, Style.printItems_eq, List.cons_append, ascii_cons, ascii_append]
    refine ⟨by decide, ascii_join (by decide) fun s hs => ?_, by decide⟩
    obtain ⟨x, hx, rfl⟩ := List.mem_map.mp hs
    exact ih x hx (Json.noFloat_arr.mp hj x hx)
  | obj d ih =>
    rw [Style.print, Style.printFields_eq, List.cons_append, ascii_cons, ascii_append]
    refine ⟨by decide, ascii_join (by decide) fun s hs => ?_, by decide⟩
    obtain ⟨kv, hkv, rfl⟩ := List.mem_map.mp hs
    rw [Style.field, ascii_append, ascii_append]
    exact ⟨⟨hquote _, by decide⟩, ih kv hkv (Json.noFloat_obj.mp hj kv hkv)⟩

/-! ## Lengths -/

omit [Interp] in
theorem join_length (sep : Str) (x : Str) (xs : List Str) :
    (join sep (x :: xs)).length = ((x :: xs).map List.length).sum + sep.length * xs.length := by
  rw [join, List.length_append]
  induction xs with
  | nil => simp
  | cons y ys ih =>
    simp only [List.flatMap_cons, List.length_append, List.map_cons, List.sum_cons, List.length_cons] at ih ⊢
    ring_nf at ih ⊢
    omega

omit [Interp] in
/-- The length of a joined list depends on the lengths of its parts, in any order. -/
theorem join_length_congr (sep : Str) {l l' : List Str} (h : (l.map List.length).Perm (l'.map List.length)) :
    (join sep l).length = (join sep l').length := by
  have hlen : l.length = l'.length := by simpa using h.length_eq
  cases l with
  | nil =>
    cases l' with
    | nil => rfl
    | cons => simp at hlen
  | cons x xs =>
    cases l' with
    | nil => simp at hlen
    | cons y ys =>
      rw [join_length, join_length, h.sum_eq]
      simp only [List.length_cons, Nat.add_right_cancel_iff] at hlen
      rw [hlen]

/-- Sorting the keys does not change the length. -/
theorem print_norm_length (st : Style) (j : Json) : (st.print j.norm).length = (st.print j).length := by
  induction j with
  | null | bool | int | float | str => rfl
  | arr xs ih =>
    simp only [Json.norm_arr, Style.print, Style.printItems_eq, List.length_append, List.length_cons]
    rw [join_length_congr]
    simp only [List.map_map]
    exact List.Perm.of_eq (List.map_congr_left fun x hx => ih x hx)
  | obj d ih =>
    simp only [Json.norm_obj, Style.print, Style.printFields_eq, List.length_append, List.length_cons]
    rw [join_length_congr]
    refine (((Json.sortKeys_perm _).map st.field).map List.length).trans (.of_eq ?_)
    simp only [List.map_map]
    refine List.map_congr_left fun kv hkv => ?_
    simp only [Function.comp_apply, Style.field, List.length_append, ih kv hkv]

/-! ## Octets -/

/-- The octets that UTF-8 has for a text. -/
def utf8Length (s : Str) : Nat := (s.map fun c => ((CodePoint.utf8? c).getD []).length).sum

section
omit [Interp]

theorem utf8?_length {s : Str} {b : Bytes} (h : utf8? s = some b) : b.length = utf8Length s := by
  induction s generalizing b with
  | nil =>
    cases h
    rfl
  | cons c s ih =>
    simp only [utf8?, Option.bind_eq_bind, Option.bind_eq_some_iff, Option.some.injEq] at h
    obtain ⟨x, hx, bs, hbs, rfl⟩ := h
    simp only [utf8Length, List.map_cons, List.sum_cons, hx, Option.getD_some, List.length_append, ih hbs]

/-- A code point has four octets at most. -/
theorem utf8Length_char_le (c : CodePoint) : ((CodePoint.utf8? c).getD []).length ≤ 4 := by
  unfold CodePoint.utf8?
  split
  · rw [Option.getD_some, String.length_utf8EncodeChar]
    exact Char.utf8Size_le_four _
  · exact Nat.zero_le 4

theorem utf8?_length_le {s : Str} {b : Bytes} (h : utf8? s = some b) : b.length ≤ 4 * s.length := by
  rw [utf8?_length h, utf8Length]
  induction s generalizing b with
  | nil => exact Nat.le_refl 0
  | cons c s ih =>
    simp only [utf8?, Option.bind_eq_bind, Option.bind_eq_some_iff] at h
    obtain ⟨_, _, bs, hbs, _⟩ := h
    have := ih hbs
    have := utf8Length_char_le c
    simp only [List.map_cons, List.sum_cons, List.length_cons]
    omega

@[simp] theorem utf8Length_nil : utf8Length [] = 0 := rfl

@[simp] theorem utf8Length_append (s t : Str) : utf8Length (s ++ t) = utf8Length s + utf8Length t := by simp [utf8Length]

@[simp] theorem utf8Length_cons (c : CodePoint) (s : Str) :
    utf8Length (c :: s) = ((CodePoint.utf8? c).getD []).length + utf8Length s := by simp [utf8Length]

theorem utf8Length_ascii {s : Str} (h : Ascii s) : utf8Length s = s.length := by
  obtain ⟨b, hb, hlength⟩ := utf8?_ascii h
  rw [← utf8?_length hb, hlength]

/-- A text in the place of which another stands that is no shorter. -/
theorem utf8Length_flatMap_le {f g : CodePoint → Str} (h : ∀ c, utf8Length (f c) ≤ (g c).length) (s : Str) :
    utf8Length (s.flatMap f) ≤ (s.flatMap g).length := by
  induction s with
  | nil => exact Nat.le_refl 0
  | cons c s ih =>
    rw [List.flatMap_cons, List.flatMap_cons, utf8Length_append, List.length_append]
    exact Nat.add_le_add (h c) ih

theorem utf8Length_join_le {sep sep' : Str} (hsep : utf8Length sep ≤ sep'.length) {l l' : List Str}
    (h : List.Forall₂ (fun s t => utf8Length s ≤ t.length) l l') : utf8Length (join sep l) ≤ (join sep' l').length := by
  cases h with
  | nil => exact Nat.le_refl 0
  | cons hfirst hrest =>
    rw [join, join, utf8Length_append, List.length_append]
    refine Nat.add_le_add hfirst ?_
    induction hrest with
    | nil => exact Nat.le_refl 0
    | cons hnext _ ih =>
      simp only [List.flatMap_cons, utf8Length_append, List.length_append]
      omega

end

/-- A style has no more octets than another has code points. -/
structure Style.Within (st st' : Style) : Prop where
  esc : ∀ c, utf8Length (st.esc c) ≤ (st'.esc c).length
  comma : utf8Length st.comma ≤ st'.comma.length
  colon : utf8Length st.colon ≤ st'.colon.length

theorem Style.Within.print_le {st st' : Style} (h : st.Within st') {j : Json} (hj : j.NoFloat) :
    utf8Length (st.print j) ≤ (st'.print j).length := by
  have hascii : ∀ c : CodePoint, c.val < 0x80 → utf8Length [c] = 1 := fun c hc => utf8Length_ascii (by simpa using hc)
  have hquote : ∀ s, utf8Length (st.quote s) ≤ (st'.quote s).length := by
    intro s
    have := utf8Length_flatMap_le h.esc s
    have := hascii (cp '"') (by decide)
    simp only [Style.quote, List.cons_append, utf8Length_cons, utf8Length_append, List.length_cons, List.length_append, utf8Length_nil,
      List.length_nil] at *
    omega
  have hbracket : ∀ (o c : CodePoint), o.val < 0x80 → c.val < 0x80 → ∀ s t : Str, utf8Length s ≤ t.length →
      utf8Length (o :: s ++ [c]) ≤ (o :: t ++ [c]).length := by
    intro o c ho hc s t hst
    have := hascii o ho
    have := hascii c hc
    simp only [List.cons_append, utf8Length_cons, utf8Length_append, List.length_cons, List.length_append, utf8Length_nil,
      List.length_nil] at *
    omega
  induction j with
  | null => exact (utf8Length_ascii (by decide : Ascii (lit "null"))).le
  | bool b =>
    cases b
    · exact (utf8Length_ascii (by decide : Ascii (lit "false"))).le
    · exact (utf8Length_ascii (by decide : Ascii (lit "true"))).le
  | int i => exact (utf8Length_ascii fun c hc => strInt_val_lt hc).le
  | float f => exact absurd hj (by simp [Json.NoFloat, Json.All])
  | str s => exact hquote s
  | arr xs ih =>
    rw [Style.print, Style.print, Style.printItems_eq, Style.printItems_eq]
    refine hbracket _ _ (by decide) (by decide) _ _ (utf8Length_join_le h.comma ?_)
    rw [List.forall₂_map_left_iff, List.forall₂_map_right_iff, List.forall₂_same]
    exact fun x hx => ih x hx (Json.noFloat_arr.mp hj x hx)
  | obj d ih =>
    rw [Style.print, Style.print, Style.printFields_eq, Style.printFields_eq]
    refine hbracket _ _ (by decide) (by decide) _ _ (utf8Length_join_le h.comma ?_)
    rw [List.forall₂_map_left_iff, List.forall₂_map_right_iff, List.forall₂_same]
    intro kv hkv
    rw [Style.field, Style.field, utf8Length_append, utf8Length_append, List.length_append, List.length_append]
    exact Nat.add_le_add (Nat.add_le_add (hquote _) h.colon) (ih kv hkv (Json.noFloat_obj.mp hj kv hkv))

/-- What `json.dumps` writes has as many octets as code points. -/
theorem utf8?_dumps_length {j : Json} (hj : j.NoFloat) : ∃ b, utf8? (dumps j) = some b ∧ b.length = (dumps j).length :=
  utf8?_ascii (dumps_ascii hj)

theorem print_obj_append_length (st : Style) (d e : List (Str × Json)) :
    (st.print (.obj d)).length ≤ (st.print (.obj (d ++ e))).length := by
  simp only [Style.print, Style.printFields_eq, List.length_append, List.length_cons, List.map_append]
  cases d with
  | nil => simp [join]
  | cons kv d => simp [join]

/-! ## Text no style escapes -/

/-- Printable ASCII without spaces, quotes and backslashes. -/
def Plain (s : Str) : Prop := ∀ c ∈ s, 0x23 ≤ c.val ∧ c.val ≤ 0x7E ∧ c.val ≠ 0x5C

instance (s : Str) : Decidable (Plain s) := List.decidableBAll _ s

/-- The style writes plain text as it is. -/
def Style.KeepsPlain (st : Style) : Prop :=
  ∀ c : CodePoint, 0x23 ≤ c.val ∧ c.val ≤ 0x7E ∧ c.val ≠ 0x5C → st.esc c = [c]

omit [Interp] in
theorem flatMap_singleton {s : Str} {f : CodePoint → Str} (h : ∀ c ∈ s, f c = [c]) : s.flatMap f = s := by
  induction s with
  | nil => rfl
  | cons c s ih =>
    rw [List.flatMap_cons, h c (by simp), ih fun d hd => h d (by simp [hd])]
    rfl

omit [Interp] in
theorem quote_plain_length {st : Style} (hst : st.KeepsPlain) {s : Str} (hs : Plain s) :
    (st.quote s).length = s.length + 2 := by
  simp [Style.quote, flatMap_singleton fun c hc => hst c (hs c hc)]

omit [Interp] in
theorem dumpsStyle_keepsPlain : dumpsStyle.KeepsPlain := by
  rintro c ⟨hl, hh, hb⟩
  show asciiEsc c = [c]
  unfold asciiEsc
  split_ifs <;> first | omega | rfl

omit [Interp] in
theorem plain_hex (b : Bytes) : Plain (hex b) := by
  have hdigit : ∀ n < 16, 0x23 ≤ (hexDigit n).val ∧ (hexDigit n).val ≤ 0x7E ∧ (hexDigit n).val ≠ 0x5C := by decide
  intro c h
  induction b with
  | nil => simp [hex] at h
  | cons x b ih =>
    have hx := x.toNat_lt
    rw [hex_cons, List.mem_cons, List.mem_cons] at h
    rcases h with rfl | rfl | h
    · exact hdigit _ (by omega)
    · exact hdigit _ (by omega)
    · exact ih h

end Py
