/-
The JSON round trip: what a printer writes, the decoder reads back, for every
style of which `Style.Reads` holds (`loads_print`). The value must be one a
text can carry: distinct keys, no float (the interpreter's own affair), no
unpaired surrogate (two of them side by side would be read as one code
point), and integers under the decoder's digit limit.
-/
import Ca2a.Py.Dumps
import Ca2a.Py.Except

namespace Py

/-- A style the decoder reads: each escape is one step of the string scanner, and the
separators are a comma and a colon followed by nothing but whitespace. -/
structure Style.Reads (st : Style) : Prop where
  esc_scan : ∀ c : CodePoint, c.scalar → ∀ n r,
    scanString? (n + 1) (st.esc c ++ r) = (scanString? n r).map fun p => (c :: p.1, p.2)
  esc_ne : ∀ c, st.esc c ≠ []
  comma_eq : ∃ w, st.comma = cp ',' :: w ∧ ∀ c ∈ w, isWs c = true
  colon_eq : ∃ w, st.colon = cp ':' :: w ∧ ∀ c ∈ w, isWs c = true

theorem skipWs_cons {c : CodePoint} {r : Str} (h : isWs c = false) : skipWs (c :: r) = c :: r := by
  simp [skipWs, h]

theorem skipWs_append {w r : Str} (h : ∀ c ∈ w, isWs c = true) : skipWs (w ++ r) = skipWs r := by
  induction w with
  | nil => rfl
  | cons c w ih =>
    have := ih fun d hd => h d (by simp [hd])
    simp only [skipWs] at this ⊢
    rw [List.cons_append, List.dropWhile_cons, if_pos (h c (by simp)), this]

theorem consume?_append (p r : Str) : consume? p (p ++ r) = some r := by
  simp [consume?]

theorem consume?_head_ne {a b : CodePoint} {p r : Str} (h : a ≠ b) : consume? (a :: p) (b :: r) = none := by
  simp [consume?, h]

theorem scanString?_quote {st : Style} (hst : st.Reads) {s : Str} (hs : Clean s) {n : Nat} (hn : s.length < n)
    (r : Str) : scanString? n (s.flatMap st.esc ++ cp '"' :: r) = some (s, r) := by
  induction s generalizing n with
  | nil =>
    obtain ⟨n, rfl⟩ : ∃ m, n = m + 1 := ⟨n - 1, by simp at hn; omega⟩
    simp [scanString?]
  | cons c s ih =>
    rw [clean_cons] at hs
    obtain ⟨n, rfl⟩ : ∃ m, n = m + 1 := ⟨n - 1, by simp at hn; omega⟩
    rw [List.flatMap_cons, List.append_assoc, hst.esc_scan c hs.1, ih hs.2 (by simp at hn; omega)]
    rfl

theorem flatMap_esc_length {st : Style} (hst : st.Reads) (s : Str) : s.length ≤ (s.flatMap st.esc).length := by
  induction s with
  | nil => simp
  | cons c s ih =>
    have := List.length_pos_of_ne_nil (hst.esc_ne c)
    simp only [List.flatMap_cons, List.length_append, List.length_cons]
    omega

/-! ### Escapes -/

theorem scanString?_plain {c : CodePoint} (hq : c.val ≠ 0x22) (hb : c.val ≠ 0x5C) (h : 0x20 ≤ c.val) (n : Nat) (r : Str) :
    scanString? (n + 1) (c :: r) = (scanString? n r).map fun p => (c :: p.1, p.2) := by
  have h1 : c ≠ cp '"' := fun h => hq (congrArg Fin.val h)
  have h2 : c ≠ cp '\\' := fun h => hb (congrArg Fin.val h)
  rw [scanString?, if_neg h1, if_neg h2, if_neg (by omega)]
  cases scanString? n r <;> rfl

theorem scanString?_escape {c : CodePoint} {t r : Str} (h : scanEscape? t = some (c, r)) (n : Nat) :
    scanString? (n + 1) (cp '\\' :: t) = (scanString? n r).map fun p => (c :: p.1, p.2) := by
  rw [scanString?, if_neg (by decide), if_pos rfl]
  simp only [h, bind, Option.bind]
  cases scanString? n r <;> rfl

theorem hexN_four {n : Nat} (h : n < 0x10000) :
    hexN 4 n = [hexDigit (n / 0x1000), hexDigit (n / 0x100 % 16), hexDigit (n / 0x10 % 16), hexDigit (n % 16)] := by
  simp only [hexN, List.nil_append, List.cons_append, Nat.div_div_eq_div_mul]
  rw [Nat.mod_eq_of_lt (show n / (16 * 16 * 16) < 16 by omega)]

theorem hex4?_hexN {n : Nat} (h : n < 0x10000) (r : Str) : hex4? (hexN 4 n ++ r) = some (n, r) := by
  rw [hexN_four h]
  simp only [List.cons_append, List.nil_append, hex4?, hexVal?_hexDigit (n / 0x1000) (by omega),
    hexVal?_hexDigit _ (Nat.mod_lt _ (show 0 < 16 by decide)), bind, Option.bind, Option.some.injEq, Prod.mk.injEq, and_true]
  omega

/-- A `\u` escape of a code point that is no high surrogate. -/
theorem scanEscape?_unit {c : CodePoint} (h : c.val < 0x10000) (hs : c.scalar) (r : Str) :
    scanEscape? (cp 'u' :: (hexN 4 c.val ++ r)) = some (c, r) := by
  have hn : ¬ (0xD800 ≤ c.val ∧ c.val ≤ 0xDBFF) := by
    simp only [CodePoint.scalar] at hs
    omega
  have hc : Fin.ofNat 0x110000 c.val = c := Fin.ext (Nat.mod_eq_of_lt c.isLt)
  rw [scanEscape?, if_pos rfl]
  simp only [hex4?_hexN h, bind, Option.bind, if_neg hn, hc]

/-- Two `\u` escapes that make a surrogate pair are read as one code point. -/
theorem scanEscape?_pair {hi lo : Nat} (hhi : 0xD800 ≤ hi ∧ hi ≤ 0xDBFF) (hlo : 0xDC00 ≤ lo ∧ lo ≤ 0xDFFF) (r : Str) :
    scanEscape? (cp 'u' :: (hexN 4 hi ++ ([cp '\\', cp 'u'] ++ (hexN 4 lo ++ r)))) =
      some (Fin.ofNat 0x110000 (0x10000 + (hi - 0xD800) * 0x400 + (lo - 0xDC00)), r) := by
  rw [scanEscape?, if_pos rfl]
  simp only [hex4?_hexN (show hi < 0x10000 by omega), bind, Option.bind, if_pos hhi, consume?_append,
    hex4?_hexN (show lo < 0x10000 by omega), if_pos hlo]

/-- The surrogate pair of an astral code point stands for it. -/
theorem pair_value {c : CodePoint} (h : 0x10000 ≤ c.val) {hi lo : Nat} (hhi : hi = 0xD800 + (c.val - 0x10000) / 0x400)
    (hlo : lo = 0xDC00 + (c.val - 0x10000) % 0x400) :
    Fin.ofNat 0x110000 (0x10000 + (hi - 0xD800) * 0x400 + (lo - 0xDC00)) = c := by
  have hl := c.isLt
  apply Fin.ext
  rw [Fin.val_ofNat, Nat.mod_eq_of_lt] <;> omega

/-- A short escape of `c`. -/
theorem scanString?_short {e c : CodePoint} (he : e ≠ cp 'u') (h : shortEscape? e = some c) (n : Nat) (r : Str) :
    scanString? (n + 1) (cp '\\' :: e :: r) = (scanString? n r).map fun p => (c :: p.1, p.2) :=
  scanString?_escape (by rw [scanEscape?, if_neg he, h]; rfl) n

/-- What may follow a value inside a document. -/
def Follow (r : Str) : Prop := ∀ c, r.head? = some c → c = cp ',' ∨ c = cp ']' ∨ c = cp '}'

theorem follow_nil : Follow [] := by simp [Follow]

theorem follow_cons {c : CodePoint} {r : Str} (h : c = cp ',' ∨ c = cp ']' ∨ c = cp '}') : Follow (c :: r) := by
  simpa [Follow] using h

theorem follow_comma {st : Style} (hst : st.Reads) (r : Str) : Follow (st.comma ++ r) := by
  obtain ⟨w, hw, _⟩ := hst.comma_eq
  rw [hw]
  exact follow_cons (.inl rfl)

theorem follow_not_digit {r : Str} (h : Follow r) : r.takeWhile isDigit = [] ∧ r.dropWhile isDigit = r := by
  cases r with
  | nil => simp
  | cons c r =>
    have hd : isDigit c = false := by
      rcases h c rfl with rfl | rfl | rfl <;> decide
    simp [hd]

theorem scanFrac_follow {r : Str} (h : Follow r) : scanFrac r = ([], r) := by
  match r, h with
  | [], _ => rfl
  | [_], _ => rfl
  | c :: d :: r, h =>
    have hc : c ≠ cp '.' := by
      rcases h c rfl with rfl | rfl | rfl <;> decide
    simp [scanFrac, hc]

theorem scanExp_follow {r : Str} (h : Follow r) : scanExp r = ([], r) := by
  cases r with
  | nil => rfl
  | cons c r =>
    have hc : c ≠ cp 'e' ∧ c ≠ cp 'E' := by
      rcases h c rfl with rfl | rfl | rfl <;> decide
    simp [scanExp, hc]

theorem takeWhile_digits {ds r : Str} (hd : ∀ c ∈ ds, isDigit c = true) (h : Follow r) :
    (ds ++ r).takeWhile isDigit = ds ∧ (ds ++ r).dropWhile isDigit = r := by
  obtain ⟨h1, h2⟩ := follow_not_digit h
  rw [List.takeWhile_append_of_pos (by simpa using hd), List.dropWhile_append_of_pos (by simpa using hd), h1, h2]
  simp

theorem decimal_length_le {n m : Nat} (h : n ≤ m) (hm : m < 10 ^ maxStrDigits) : (decimal n).length ≤ maxStrDigits := by
  rw [decimal, List.length_map, Nat.length_toDigits_le_iff (by decide) (by decide)]
  omega

/-- What a value must satisfy to survive a text. -/
structure Printable (j : Json) : Prop where
  wf : j.WF
  noFloat : j.NoFloat
  clean : j.CleanText
  ints : ∃ m < 10 ^ maxStrDigits, j.IntsWithin m

theorem Printable.item {xs : List Json} (h : Printable (.arr xs)) {x : Json} (hx : x ∈ xs) : Printable x := by
  obtain ⟨m, hm, hi⟩ := h.ints
  exact ⟨Json.wf_arr.mp h.wf x hx, Json.noFloat_arr.mp h.noFloat x hx, Json.cleanText_arr.mp h.clean x hx,
    m, hm, Json.intsWithin_arr.mp hi x hx⟩

theorem Printable.field {d : List (Str × Json)} (h : Printable (.obj d)) {kv : Str × Json} (hkv : kv ∈ d) :
    Clean kv.1 ∧ Printable kv.2 := by
  obtain ⟨m, hm, hi⟩ := h.ints
  obtain ⟨hk, hv⟩ := Json.cleanText_obj.mp h.clean
  exact ⟨hk kv hkv, (Json.wf_obj.mp h.wf).2 kv hkv, Json.noFloat_obj.mp h.noFloat kv hkv, hv kv hkv,
    m, hm, Json.intsWithin_obj.mp hi kv hkv⟩

theorem skipWs_comma {st : Style} (hst : st.Reads) (r : Str) :
    ∃ s, skipWs (st.comma ++ r) = cp ',' :: s ∧ skipWs s = skipWs r := by
  obtain ⟨w, hw, hws⟩ := hst.comma_eq
  exact ⟨w ++ r, by rw [hw, List.cons_append, skipWs_cons (by decide)], skipWs_append hws⟩

theorem skipWs_colon {st : Style} (hst : st.Reads) (r : Str) :
    ∃ s, skipWs (st.colon ++ r) = cp ':' :: s ∧ skipWs s = skipWs r := by
  obtain ⟨w, hw, hws⟩ := hst.colon_eq
  exact ⟨w ++ r, by rw [hw, List.cons_append, skipWs_cons (by decide)], skipWs_append hws⟩

theorem comma_length_pos {st : Style} (hst : st.Reads) : 0 < st.comma.length := by
  obtain ⟨w, hw, _⟩ := hst.comma_eq
  simp [hw]

theorem dictHook_nodup {ε : Type} (d : List (Str × Json)) (h : (Dict.keys d).Nodup) : dictHook (ε := ε) d = .ok (.obj d) := by
  rw [dictHook, Dict.update, Dict.foldl_set_append (by simpa using h)]
  rfl

section
variable {ε : Type} [Interp]

theorem expect_cons (c : CodePoint) (r : Str) : expect (ε := ε) c (c :: r) = .ok r := by simp [expect]

theorem scanString_quote {st : Style} (hst : st.Reads) {s : Str} (hs : Clean s) (r : Str) :
    scanString (ε := ε) (s.flatMap st.esc ++ cp '"' :: r) = .ok (s, r) := by
  have hl := flatMap_esc_length hst s
  rw [scanString, scanString?_quote hst hs (by rw [List.length_append]; omega)]

/-! ### Numbers -/

theorem finishNumber_int (neg : Bool) {ds r : Str} (hd : ds.length ≤ maxStrDigits) (h : Follow r) :
    finishNumber (ε := ε) neg ds r = .ok (.int (if neg then -(digitsVal ds : Int) else digitsVal ds), r) := by
  simp [finishNumber, scanFrac_follow h, scanExp_follow h, hd]

theorem scanDigits_decimal (neg : Bool) {n : Nat} (hn : (decimal n).length ≤ maxStrDigits) {r : Str} (h : Follow r) :
    scanDigits (ε := ε) neg (decimal n ++ r) = .ok (.int (if neg then -(n : Int) else n), r) := by
  have hv := digitsVal_decimal n
  rcases decimal_head n with h0 | ⟨d, ds, he, h1, h2, hds⟩
  · rw [h0] at hn hv ⊢
    simp only [List.singleton_append, scanDigits, if_pos]
    rw [finishNumber_int neg hn h, hv]
  · rw [he] at hn hv ⊢
    have hd0 : d ≠ cp '0' := by
      intro hd
      rw [hd] at h1
      exact absurd h1 (by decide)
    have hdig : isDigit d = true := by simp [isDigit]; omega
    obtain ⟨ht, hr⟩ := takeWhile_digits hds h
    simp only [List.cons_append, scanDigits, if_neg hd0, hdig, if_pos, ht, hr]
    rw [finishNumber_int neg hn h, hv]

/-- The decoder's words do not start with a digit or a minus sign. -/
theorem scanAtom_number {c : CodePoint} {r : Str} (h : isDigit c = true ∨ c = cp '-') :
    scanAtom (ε := ε) (c :: r) = scanNumber (c :: r) := by
  have hne : cp 'n' ≠ c ∧ cp 't' ≠ c ∧ cp 'f' ≠ c ∧ cp 'N' ≠ c ∧ cp 'I' ≠ c := by
    rcases h with h | rfl
    · refine ⟨?_, ?_, ?_, ?_, ?_⟩ <;> rintro rfl <;> exact absurd h (by decide)
    · decide
  obtain ⟨h1, h2, h3, h4, h5⟩ := hne
  have e1 : consume? (lit "null") (c :: r) = none := consume?_head_ne h1
  have e2 : consume? (lit "true") (c :: r) = none := consume?_head_ne h2
  have e3 : consume? (lit "false") (c :: r) = none := consume?_head_ne h3
  have e4 : consume? (lit "NaN") (c :: r) = none := consume?_head_ne h4
  have e5 : consume? (lit "Infinity") (c :: r) = none := consume?_head_ne h5
  simp only [scanAtom, e1, e2, e3, e4, e5]

theorem scanAtom_strInt {i : Int} {m : Nat} (hi : i.natAbs ≤ m) (hm : m < 10 ^ maxStrDigits) {r : Str}
    (h : Follow r) : scanAtom (ε := ε) (strInt i ++ r) = .ok (.int i, r) := by
  cases i with
  | ofNat n =>
    have hl := decimal_length_le (n := n) (by simpa using hi) hm
    obtain ⟨d, ds, hd⟩ := List.exists_cons_of_ne_nil (decimal_ne_nil n)
    have hdig : isDigit d = true := decimal_isDigit (n := n) (by rw [hd]; simp)
    have hneg : d ≠ cp '-' := by rintro rfl; exact absurd hdig (by decide)
    have := scanDigits_decimal (ε := ε) false hl h
    rw [strInt, hd, List.cons_append] at *
    rw [scanAtom_number (.inl hdig), scanNumber, if_neg hneg, this]
    rfl
  | negSucc n =>
    have hl := decimal_length_le (n := n + 1) (by simpa using hi) hm
    have := scanDigits_decimal (ε := ε) true hl h
    obtain ⟨d, ds, hd⟩ := List.exists_cons_of_ne_nil (decimal_ne_nil (n + 1))
    have hdig : isDigit d = true := decimal_isDigit (n := n + 1) (by rw [hd]; simp)
    have hI : consume? (lit "Infinity") (decimal (n + 1) ++ r) = none := by
      rw [hd, List.cons_append]
      exact consume?_head_ne (by rintro rfl; exact absurd hdig (by decide))
    rw [strInt, List.cons_append, scanAtom_number (.inr rfl), scanNumber, if_pos rfl, hI]
    simp only [this]
    rfl

/-! ### Values -/

/-- A value's text starts neither with whitespace nor with a closing bracket. -/
theorem print_head (st : Style) {j : Json} (hj : j.NoFloat) :
    ∃ c r, st.print j = c :: r ∧ isWs c = false ∧ c ≠ cp ']' ∧ c ≠ cp '}' ∧ c.val < 0x80 := by
  have hdig : ∀ c : CodePoint, isDigit c = true → isWs c = false ∧ c ≠ cp ']' ∧ c ≠ cp '}' ∧ c.val < 0x80 := by
    intro c hc
    refine ⟨?_, ?_, ?_, isDigit_val_lt hc⟩
    · simp only [isWs, Bool.or_eq_false_iff, decide_eq_false_iff_not]
      refine ⟨⟨⟨?_, ?_⟩, ?_⟩, ?_⟩ <;> rintro rfl <;> exact absurd hc (by decide)
    · rintro rfl; exact absurd hc (by decide)
    · rintro rfl; exact absurd hc (by decide)
  cases j with
  | null => exact ⟨cp 'n', lit "ull", rfl, by decide, by decide, by decide, by decide⟩
  | bool b =>
    cases b
    · exact ⟨cp 'f', lit "alse", rfl, by decide, by decide, by decide, by decide⟩
    · exact ⟨cp 't', lit "rue", rfl, by decide, by decide, by decide, by decide⟩
  | int i =>
    cases i with
    | ofNat n =>
      obtain ⟨d, ds, hd⟩ := List.exists_cons_of_ne_nil (decimal_ne_nil n)
      exact ⟨d, ds, by simp [Style.print, strInt, hd], hdig d (decimal_isDigit (n := n) (by rw [hd]; simp))⟩
    | negSucc n => exact ⟨cp '-', decimal (n + 1), by simp [Style.print, strInt], by decide, by decide, by decide, by decide⟩
  | float f => simp [Json.NoFloat, Json.All] at hj
  | str s => exact ⟨cp '"', _, by rw [Style.print, Style.quote]; rfl, by decide, by decide, by decide, by decide⟩
  | arr xs => exact ⟨cp '[', _, by rw [Style.print]; rfl, by decide, by decide, by decide, by decide⟩
  | obj d => exact ⟨cp '{', _, by rw [Style.print]; rfl, by decide, by decide, by decide, by decide⟩

theorem skipWs_print (st : Style) {j : Json} (hj : j.NoFloat) (r : Str) :
    skipWs (st.print j ++ r) = st.print j ++ r := by
  obtain ⟨c, s, hs, hw, _⟩ := print_head st hj
  rw [hs, List.cons_append, skipWs_cons hw]

theorem print_length_pos (st : Style) {j : Json} (hj : j.NoFloat) : 0 < (st.print j).length := by
  obtain ⟨c, s, hs, _⟩ := print_head st hj
  simp [hs]

/-- The scanner reads back one value. -/
abbrev ScansBack (st : Style) (hook : PairsHook ε) (j : Json) : Prop :=
  ∀ n r, (st.print j).length ≤ n → Follow r → scanValue hook n (st.print j ++ r) = .ok (j, r)

/-- The items of a list, from the text of its first item to its closing bracket. -/
theorem scanItems_print {st : Style} (hst : st.Reads) (hook : PairsHook ε) (x : Json) (xs : List Json)
    (hp : ∀ y ∈ x :: xs, Json.NoFloat y) (h : ∀ y ∈ x :: xs, ScansBack st hook y) (n : Nat) (r : Str)
    (hn : (join st.comma ((x :: xs).map st.print)).length < n) :
    scanItems hook n (join st.comma ((x :: xs).map st.print) ++ cp ']' :: r) = .ok (x :: xs, r) := by
  induction xs generalizing x n with
  | nil =>
    obtain ⟨n, rfl⟩ : ∃ m, n = m + 1 := ⟨n - 1, by omega⟩
    simp only [List.map_cons, List.map_nil, join, List.flatMap_nil, List.append_nil] at hn ⊢
    rw [scanItems, h x (by simp) n _ (by omega) (follow_cons (.inr (.inl rfl)))]
    simp only [bind, Except.bind, skipWs_cons (show isWs (cp ']') = false by decide)]
    rw [show cp ']' :: r = [cp ']'] ++ r from rfl, consume?_append]
  | cons y xs ih =>
    obtain ⟨n, rfl⟩ : ∃ m, n = m + 1 := ⟨n - 1, by omega⟩
    have hx := print_length_pos st (hp x (by simp))
    have hcl := comma_length_pos hst
    have hjoin : join st.comma ((x :: y :: xs).map st.print) =
        st.print x ++ (st.comma ++ join st.comma ((y :: xs).map st.print)) := by simp [join]
    rw [hjoin] at hn ⊢
    simp only [List.length_append] at hn
    rw [List.append_assoc, List.append_assoc, scanItems,
      h x (by simp) n _ (by omega) (follow_comma hst _)]
    obtain ⟨s, hs, hs'⟩ := skipWs_comma hst (join st.comma ((y :: xs).map st.print) ++ cp ']' :: r)
    have hy : skipWs (join st.comma ((y :: xs).map st.print) ++ cp ']' :: r) =
        join st.comma ((y :: xs).map st.print) ++ cp ']' :: r := by
      simp only [List.map_cons, join, List.append_assoc]
      exact skipWs_print st (hp y (by simp)) _
    simp only [bind, Except.bind, hs, consume?_head_ne (show cp ']' ≠ cp ',' by decide), expect_cons, hs', hy]
    rw [ih y (fun z hz => hp z (by simp at hz ⊢; tauto)) (fun z hz => h z (by simp at hz ⊢; tauto)) n (by omega)]

/-- One field's key and value, in front of what may follow a value. -/
theorem scanField_print {st : Style} (hst : st.Reads) (hook : PairsHook ε) {kv : Str × Json} (hk : Clean kv.1)
    (hp : Json.NoFloat kv.2) (h : ScansBack st hook kv.2) {n : Nat} {r : Str} (hn : (st.print kv.2).length ≤ n)
    (hr : Follow r) :
    (∀ r₄, consume? [cp '}'] (skipWs r) = some r₄ → scanFields hook (n + 1) (st.field kv ++ r) = .ok ([kv], r₄)) ∧
    (consume? [cp '}'] (skipWs r) = none → scanFields hook (n + 1) (st.field kv ++ r) = (do
      let r₄ ← expect (cp ',') (skipWs r)
      let (d, r₅) ← scanFields hook n (skipWs r₄)
      .ok (kv :: d, r₅))) := by
  obtain ⟨k, v⟩ := kv
  obtain ⟨s, hs, hs'⟩ := skipWs_colon hst (st.print v ++ r)
  have hq : st.field (k, v) ++ r = cp '"' :: (k.flatMap st.esc ++ cp '"' :: (st.colon ++ (st.print v ++ r))) := by
    simp [Style.field, Style.quote]
  refine ⟨fun r₄ hend => ?_, fun hmore => ?_⟩
  · rw [hq, scanFields, expect_cons]
    simp only [bind, Except.bind, scanString_quote hst hk, hs, expect_cons, hs', skipWs_print st hp, h n r hn hr, hend]
  · rw [hq, scanFields, expect_cons]
    simp only [bind, Except.bind, scanString_quote hst hk, hs, expect_cons, hs', skipWs_print st hp, h n r hn hr, hmore]

theorem field_length (st : Style) (kv : Str × Json) : (st.print kv.2).length < (st.field kv).length := by
  simp [Style.field, Style.quote]
  omega

/-- The fields of an object, from the text of its first field to its closing brace. -/
theorem scanFields_print {st : Style} (hst : st.Reads) (hook : PairsHook ε) (kv : Str × Json) (d : List (Str × Json))
    (hk : ∀ e ∈ kv :: d, Clean e.1) (hp : ∀ e ∈ kv :: d, Json.NoFloat e.2)
    (h : ∀ e ∈ kv :: d, ScansBack st hook e.2) (n : Nat) (r : Str)
    (hn : (join st.comma ((kv :: d).map st.field)).length < n) :
    scanFields hook n (join st.comma ((kv :: d).map st.field) ++ cp '}' :: r) = .ok (kv :: d, r) := by
  induction d generalizing kv n with
  | nil =>
    obtain ⟨n, rfl⟩ : ∃ m, n = m + 1 := ⟨n - 1, by omega⟩
    have hl := field_length st kv
    simp only [List.map_cons, List.map_nil, join, List.flatMap_nil, List.append_nil] at hn ⊢
    refine (scanField_print hst hook (hk kv (by simp)) (hp kv (by simp)) (h kv (by simp)) (by omega)
      (follow_cons (.inr (.inr rfl)))).1 r ?_
    rw [skipWs_cons (by decide), show cp '}' :: r = [cp '}'] ++ r from rfl, consume?_append]
  | cons e d ih =>
    obtain ⟨n, rfl⟩ : ∃ m, n = m + 1 := ⟨n - 1, by omega⟩
    have hl := field_length st kv
    have hjoin : join st.comma ((kv :: e :: d).map st.field) =
        st.field kv ++ (st.comma ++ join st.comma ((e :: d).map st.field)) := by simp [join]
    rw [hjoin] at hn ⊢
    simp only [List.length_append] at hn hl
    obtain ⟨s, hs, hs'⟩ := skipWs_comma hst (join st.comma ((e :: d).map st.field) ++ cp '}' :: r)
    have hmore : consume? [cp '}'] (cp ',' :: s) = none := consume?_head_ne (show cp '}' ≠ cp ',' by decide)
    rw [List.append_assoc, List.append_assoc,
      (scanField_print hst hook (hk kv (by simp)) (hp kv (by simp)) (h kv (by simp)) (by omega) (follow_comma hst _)).2
        (hs.symm ▸ hmore)]
    have he : skipWs (join st.comma ((e :: d).map st.field) ++ cp '}' :: r) =
        join st.comma ((e :: d).map st.field) ++ cp '}' :: r := by
      simp only [List.map_cons, join, Style.field, Style.quote, List.append_assoc, List.cons_append]
      exact skipWs_cons (by decide)
    simp only [hs, bind, Except.bind, expect_cons, hs', he]
    rw [ih e (fun z hz => hk z (by simp at hz ⊢; tauto)) (fun z hz => hp z (by simp at hz ⊢; tauto))
      (fun z hz => h z (by simp at hz ⊢; tauto)) n (by omega)]

/-- **The scanner reads back what a printer wrote**, in front of anything that may follow
a value, given fuel for the length of the text. -/
theorem scanValue_print {st : Style} (hst : st.Reads) (hook : PairsHook ε)
    (hh : ∀ d, (Dict.keys d).Nodup → hook d = .ok (.obj d)) {j : Json} (hj : Printable j) : ScansBack st hook j := by
  induction j with
  | null =>
    intro n r hn hr
    obtain ⟨n, rfl⟩ : ∃ m, n = m + 1 := ⟨n - 1, by simp [Style.print, lit] at hn; omega⟩
    rfl
  | bool b =>
    intro n r hn hr
    obtain ⟨n, rfl⟩ : ∃ m, n = m + 1 := ⟨n - 1, by cases b <;> simp [Style.print, lit] at hn <;> omega⟩
    cases b <;> rfl
  | int i =>
    intro n r hn hr
    have hpos := print_length_pos st hj.noFloat
    obtain ⟨n, rfl⟩ : ∃ m, n = m + 1 := ⟨n - 1, by omega⟩
    obtain ⟨m, hm, hi⟩ := hj.ints
    have := scanAtom_strInt (ε := ε) (Json.intsWithin_int.mp hi) hm hr
    obtain ⟨c, s, hs, _⟩ := print_head st hj.noFloat
    simp only [Style.print] at hs ⊢
    have hc : c.val < 0x3A := by
      have hmem : c ∈ strInt i := by rw [hs]; simp
      cases i with
      | ofNat n => have := decimal_isDigit (show c ∈ decimal n from hmem); simp [isDigit] at this; omega
      | negSucc n =>
        simp only [strInt, List.mem_cons] at hmem
        rcases hmem with rfl | hmem
        · decide
        · have := decimal_isDigit hmem; simp [isDigit] at this; omega
    have hq : c ≠ cp '"' := by
      rintro rfl
      have hmem : cp '"' ∈ strInt i := by rw [hs]; simp
      cases i with
      | ofNat n => exact absurd (decimal_isDigit (show cp '"' ∈ decimal n from hmem)) (by decide)
      | negSucc n =>
        simp only [strInt, List.mem_cons] at hmem
        rcases hmem with hmem | hmem
        · exact absurd hmem (by decide)
        · exact absurd (decimal_isDigit hmem) (by decide)
    rw [hs, List.cons_append] at this ⊢
    rw [scanValue, if_neg hq, if_neg (by rintro rfl; exact absurd hc (by decide)),
      if_neg (by rintro rfl; exact absurd hc (by decide)), this]
  | float f => exact absurd hj.noFloat (by simp [Json.NoFloat, Json.All])
  | str s =>
    intro n r hn hr
    have hpos := print_length_pos st hj.noFloat
    obtain ⟨n, rfl⟩ : ∃ m, n = m + 1 := ⟨n - 1, by omega⟩
    have hq : st.print (.str s) ++ r = cp '"' :: (s.flatMap st.esc ++ cp '"' :: r) := by
      simp [Style.print, Style.quote]
    rw [hq, scanValue, if_pos rfl, scanString_quote hst (Json.cleanText_str.mp hj.clean)]
    rfl
  | arr xs ih =>
    intro n r hn hr
    rw [Style.print, Style.printItems_eq] at hn ⊢
    obtain ⟨n, rfl⟩ : ∃ m, n = m + 1 := ⟨n - 1, by simp at hn; omega⟩
    rw [List.cons_append, List.cons_append, List.append_assoc, List.singleton_append, scanValue,
      if_neg (by decide), if_pos rfl]
    cases xs with
    | nil =>
      simp only [List.map_nil, join, List.nil_append]
      rw [skipWs_cons (by decide), show cp ']' :: r = [cp ']'] ++ r from rfl, consume?_append]
    | cons x xs =>
      have hnf : ∀ y ∈ x :: xs, Json.NoFloat y := fun y hy => (hj.item hy).noFloat
      have hsk : skipWs (join st.comma ((x :: xs).map st.print) ++ cp ']' :: r) =
          join st.comma ((x :: xs).map st.print) ++ cp ']' :: r := by
        simp only [List.map_cons, join, List.append_assoc]
        exact skipWs_print st (hnf x (by simp)) _
      have hne : consume? [cp ']'] (join st.comma ((x :: xs).map st.print) ++ cp ']' :: r) = none := by
        obtain ⟨c, s, hs, _, hc, _⟩ := print_head st (hnf x (by simp))
        simp only [List.map_cons, join, hs, List.cons_append]
        exact consume?_head_ne (Ne.symm hc)
      rw [hsk, hne]
      simp only [List.length_cons, List.length_append, List.length_nil] at hn
      rw [scanItems_print hst hook x xs hnf (fun y hy => ih y hy (hj.item hy)) n r (by omega)]
      rfl
  | obj d ih =>
    intro n r hn hr
    rw [Style.print, Style.printFields_eq] at hn ⊢
    obtain ⟨n, rfl⟩ : ∃ m, n = m + 1 := ⟨n - 1, by simp at hn; omega⟩
    rw [List.cons_append, List.cons_append, List.append_assoc, List.singleton_append, scanValue,
      if_neg (by decide), if_neg (by decide), if_pos rfl]
    cases d with
    | nil =>
      simp only [List.map_nil, join, List.nil_append]
      rw [skipWs_cons (by decide), show cp '}' :: r = [cp '}'] ++ r from rfl, consume?_append]
      simp only [hh [] (by simp [Dict.keys])]
      rfl
    | cons kv d =>
      have hkv : ∀ e ∈ kv :: d, Clean e.1 ∧ Printable e.2 := fun e he => hj.field he
      have hstart : ∃ s, join st.comma ((kv :: d).map st.field) ++ cp '}' :: r = cp '"' :: s := by
        simp only [List.map_cons, join, Style.field, Style.quote, List.append_assoc, List.cons_append]
        exact ⟨_, rfl⟩
      obtain ⟨s, hs⟩ := hstart
      have hsk : skipWs (join st.comma ((kv :: d).map st.field) ++ cp '}' :: r) =
          join st.comma ((kv :: d).map st.field) ++ cp '}' :: r := by
        rw [hs]; exact skipWs_cons (by decide)
      have hne : consume? [cp '}'] (join st.comma ((kv :: d).map st.field) ++ cp '}' :: r) = none := by
        rw [hs]; exact consume?_head_ne (by decide)
      simp only [List.length_cons, List.length_append, List.length_nil] at hn
      have hscan := scanFields_print hst hook kv d (fun e he => (hkv e he).1) (fun e he => (hkv e he).2.noFloat)
        (fun e he => ih e he (hkv e he).2) n r (by omega)
      rw [hsk, hne, hscan]
      simp only [bind, Except.bind, hh (kv :: d) (Json.wf_obj.mp hj.wf).1]

/-- **The JSON round trip.** -/
theorem loads_print {st : Style} (hst : st.Reads) (hook : PairsHook ε)
    (hh : ∀ d, (Dict.keys d).Nodup → hook d = .ok (.obj d)) {j : Json} (hj : Printable j) :
    loads hook (st.print j) = .ok j := by
  have hsk := skipWs_print st hj.noFloat []
  rw [List.append_nil] at hsk
  have hbom : (st.print j).head? ≠ some 0xFEFF := by
    obtain ⟨c, s, hs, _, _, _, hc⟩ := print_head st hj.noFloat
    rw [hs, List.head?_cons]
    rintro ⟨⟩
    exact absurd hc (by decide)
  have := scanValue_print hst hook hh hj ((st.print j).length + 1) [] (by omega) follow_nil
  rw [List.append_nil] at this
  rw [loads, if_neg hbom]
  simp only [hsk, this, bind, Except.bind]
  rfl

theorem loadsUtf8_print {st : Style} (hst : st.Reads) (hook : PairsHook ε)
    (hh : ∀ d, (Dict.keys d).Nodup → hook d = .ok (.obj d)) {j : Json} (hj : Printable j) {b : Bytes}
    (hb : utf8? (st.print j) = some b) : loadsUtf8 hook b = .ok j := by
  simp only [loadsUtf8, decodeUtf8, fromUtf8?_utf8? hb, ok_bind]
  exact loads_print hst hook hh hj

end

/-! ## Printed text is clean -/

theorem clean_flatMap {s : Str} {f : CodePoint → Str} : Clean (s.flatMap f) ↔ ∀ c ∈ s, Clean (f c) := by
  simp only [Clean, List.mem_flatMap]
  constructor
  · intro h c hc d hd
    exact h d ⟨c, hc, hd⟩
  · intro h d hd
    obtain ⟨c, hc, hd⟩ := hd
    exact h c hc d hd

theorem clean_join {sep : Str} {l : List Str} (hs : Clean sep) : Clean (join sep l) ↔ ∀ s ∈ l, Clean s := by
  cases l with
  | nil => simp [join]
  | cons x xs =>
    simp only [join, clean_append, List.mem_cons, forall_eq_or_imp]
    refine and_congr_right fun _ => ?_
    induction xs with
    | nil => simp
    | cons y ys ih => simp [hs, ih]

/-- A style that adds no surrogate of its own prints clean values clean. -/
theorem print_clean [Interp] {st : Style} (hesc : ∀ c : CodePoint, c.scalar → Clean (st.esc c)) (hc : Clean st.comma)
    (hk : Clean st.colon) {j : Json} (hj : j.NoFloat) (h : j.CleanText) : Clean (st.print j) := by
  have hquote : ∀ {s}, Clean s → Clean (st.quote s) := by
    intro s hs
    simp only [Style.quote, List.cons_append, clean_cons, clean_append, clean_flatMap]
    exact ⟨scalar_cp _, fun c hc => hesc c (hs c hc), scalar_cp _, clean_nil⟩
  induction j with
  | null => exact clean_lit _
  | bool b => cases b <;> exact clean_lit _
  | int i => exact clean_strInt i
  | float f => exact absurd hj (by simp [Json.NoFloat, Json.All])
  | str s => exact hquote (Json.cleanText_str.mp h)
  | arr xs ih =>
    rw [Style.print, Style.printItems_eq, List.cons_append, clean_cons, clean_append, clean_join hc]
    refine ⟨scalar_cp _, fun s hs => ?_, by simp [scalar_cp]⟩
    obtain ⟨x, hx, rfl⟩ := List.mem_map.mp hs
    exact ih x hx (Json.noFloat_arr.mp hj x hx) (Json.cleanText_arr.mp h x hx)
  | obj d ih =>
    obtain ⟨h1, h2⟩ := Json.cleanText_obj.mp h
    rw [Style.print, Style.printFields_eq, List.cons_append, clean_cons, clean_append, clean_join hc]
    refine ⟨scalar_cp _, fun s hs => ?_, by simp [scalar_cp]⟩
    obtain ⟨kv, hkv, rfl⟩ := List.mem_map.mp hs
    rw [Style.field, clean_append, clean_append]
    exact ⟨⟨hquote (h1 kv hkv), hk⟩, ih kv hkv (Json.noFloat_obj.mp hj kv hkv) (h2 kv hkv)⟩

/-- The decoder reads `json.dumps`'s own style. -/
theorem dumpsStyle_reads : dumpsStyle.Reads where
  esc_scan := by
    intro c hc n r
    simp only [dumpsStyle, asciiEsc]
    split
    · rename_i h
      exact scanString?_short (e := cp '"') (by decide) (by rw [show c = cp '"' from Fin.ext h]; decide) n r
    rename_i hq
    split
    · rename_i h
      exact scanString?_short (e := cp '\\') (by decide) (by rw [show c = cp '\\' from Fin.ext h]; decide) n r
    rename_i hb
    split
    · rename_i h
      exact scanString?_short (e := cp 'n') (by decide) (by rw [show c = 0x0A from Fin.ext h]; decide) n r
    split
    · rename_i h
      exact scanString?_short (e := cp 'r') (by decide) (by rw [show c = 0x0D from Fin.ext h]; decide) n r
    split
    · rename_i h
      exact scanString?_short (e := cp 't') (by decide) (by rw [show c = 0x09 from Fin.ext h]; decide) n r
    split
    · rename_i h
      exact scanString?_short (e := cp 'f') (by decide) (by rw [show c = 0x0C from Fin.ext h]; decide) n r
    split
    · rename_i h
      exact scanString?_short (e := cp 'b') (by decide) (by rw [show c = 0x08 from Fin.ext h]; decide) n r
    split
    · rename_i h
      exact scanString?_plain hq hb h.1 n r
    split
    · rename_i h
      exact scanString?_escape (scanEscape?_unit h hc r) n
    · have hl := c.isLt
      have hpair := @scanEscape?_pair (0xD800 + (c.val - 0x10000) / 0x400) (0xDC00 + (c.val - 0x10000) % 0x400)
        (by omega) (by omega) r
      rw [pair_value (by omega) rfl rfl] at hpair
      simp only [List.append_assoc]
      exact scanString?_escape hpair n
  esc_ne := by
    intro c
    simp only [dumpsStyle, asciiEsc]
    repeat' split
    all_goals simp [lit]
  comma_eq := ⟨[cp ' '], rfl, by simp [isWs]⟩
  colon_eq := ⟨[cp ' '], rfl, by simp [isWs]⟩

end Py
