/-
Facts about text: hexadecimal and UTF-8 read back what they wrote, UTF-16
tells clean strings apart and orders them by code units, and a printed
integer is the digits `digitsVal` reads.
-/
import Ca2a.Py.Text

namespace Py

/-! ## Hexadecimal -/

theorem hexVal?_hexDigit : ∀ n < 16, hexVal? (hexDigit n) = some n := by decide

theorem hexDigit_not_space : ∀ n < 16, isAsciiSpace (hexDigit n) = false := by decide

theorem hexDigit_val_lt : ∀ n < 16, (hexDigit n).val < 0x80 := by decide

@[simp] theorem hexN_length (w n : Nat) : (hexN w n).length = w := by
  induction w generalizing n with
  | zero => rfl
  | succ w ih => simp [hexN, ih]

theorem hexN_val_lt {w n : Nat} {c : CodePoint} (h : c ∈ hexN w n) : c.val < 0x80 := by
  induction w generalizing n with
  | zero => simp [hexN] at h
  | succ w ih =>
    simp only [hexN, List.mem_append, List.mem_singleton] at h
    rcases h with h | rfl
    · exact ih h
    · exact hexDigit_val_lt _ (Nat.mod_lt _ (by decide))

theorem hex_cons (x : UInt8) (b : Bytes) :
    hex (x :: b) = hexDigit (x.toNat / 16) :: hexDigit (x.toNat % 16) :: hex b := by
  have := x.toNat_lt
  simp [hex, hexN, Nat.mod_eq_of_lt (show x.toNat / 16 < 16 by omega)]

@[simp] theorem hex_length (b : Bytes) : (hex b).length = 2 * b.length := by
  induction b with
  | nil => rfl
  | cons x b ih => rw [hex_cons]; simp [ih]; omega

/-- `bytes.fromhex` reads back what `bytes.hex` wrote. -/
@[simp] theorem fromHex?_hex (b : Bytes) : fromHex? (hex b) = some b := by
  induction b with
  | nil => rfl
  | cons x b ih =>
    have hx := x.toNat_lt
    have hl : x.toNat % 16 < 16 := Nat.mod_lt _ (by decide)
    have hh : x.toNat / 16 < 16 := by omega
    rw [hex_cons, fromHex?, hexDigit_not_space _ hh]
    simp only [Bool.false_eq_true, if_false, hexVal?_hexDigit _ hh, hexVal?_hexDigit _ hl, ih,
      Option.bind_eq_bind, Option.bind_some, Option.some.injEq, List.cons.injEq, and_true]
    rw [Nat.div_add_mod]
    simp

theorem hex_injective : Function.Injective hex := by
  intro a b h
  have := congrArg fromHex? h
  simpa using this

@[simp] theorem hex_inj {a b : Bytes} : hex a = hex b ↔ a = b := hex_injective.eq_iff

theorem hex_val_lt {b : Bytes} {c : CodePoint} (h : c ∈ hex b) : c.val < 0x80 := by
  simp only [hex, List.mem_flatMap] at h
  obtain ⟨x, _, hx⟩ := h
  exact hexN_val_lt hx

/-! ## Clean strings -/

theorem scalar_of_lt {c : CodePoint} (h : c.val < 0xD800) : c.scalar := by
  simp only [CodePoint.scalar]; omega

theorem scalar_cp (c : Char) : (cp c).scalar := by
  have h := c.valid
  simp only [UInt32.isValidChar, Nat.isValidChar] at h
  simp only [CodePoint.scalar, cp, Char.toNat]
  omega

@[simp] theorem clean_nil : Clean [] := by simp [Clean]

@[simp] theorem clean_cons {c : CodePoint} {s : Str} : Clean (c :: s) ↔ c.scalar ∧ Clean s := by
  simp [Clean]

@[simp] theorem clean_append {s t : Str} : Clean (s ++ t) ↔ Clean s ∧ Clean t := by
  simp only [Clean, List.mem_append]
  exact ⟨fun h => ⟨fun c hc => h c (.inl hc), fun c hc => h c (.inr hc)⟩,
    fun h c hc => hc.elim (h.1 c) (h.2 c)⟩

theorem clean_of_ascii {s : Str} (h : ∀ c ∈ s, c.val < 0x80) : Clean s :=
  fun c hc => scalar_of_lt (by have := h c hc; omega)

@[simp] theorem clean_lit (s : String) : Clean (lit s) := by
  intro c hc
  simp only [lit, List.mem_map] at hc
  obtain ⟨a, _, rfl⟩ := hc
  exact scalar_cp a

@[simp] theorem clean_hex (b : Bytes) : Clean (hex b) := clean_of_ascii fun _ => hex_val_lt

/-! ## UTF-8 -/

theorem cp_char {c : CodePoint} (h : c.scalar) : cp (c.char h) = c := by
  apply Fin.ext
  simp [cp, CodePoint.char, Char.ofNatAux, Char.toNat]

theorem utf8?_isSome_iff {s : Str} : (∃ b, utf8? s = some b) ↔ Clean s := by
  induction s with
  | nil => simp [utf8?]
  | cons c s ih =>
    rw [clean_cons, ← ih]
    by_cases hc : c.scalar
    · cases hs : utf8? s <;> simp [utf8?, CodePoint.utf8?, hc, hs]
    · simp [utf8?, CodePoint.utf8?, hc]

/-- The characters of a clean string, whose UTF-8 Lean's own library writes. -/
theorem utf8?_eq_utf8Encode {s : Str} {b : Bytes} (h : utf8? s = some b) :
    ∃ cs : List Char, cs.map cp = s ∧ b.toByteArray = cs.utf8Encode := by
  induction s generalizing b with
  | nil => simp only [utf8?, Option.some.injEq] at h; subst h; exact ⟨[], rfl, by simp⟩
  | cons c s ih =>
    simp only [utf8?, Option.bind_eq_bind, Option.bind_eq_some_iff, Option.some.injEq] at h
    obtain ⟨x, hx, y, hy, rfl⟩ := h
    obtain ⟨cs, hcs, hb⟩ := ih hy
    simp only [CodePoint.utf8?] at hx
    split at hx
    · rename_i hc
      simp only [Option.some.injEq] at hx
      subst hx
      refine ⟨c.char hc :: cs, by simp [cp_char, hcs], ?_⟩
      rw [List.utf8Encode_cons, List.utf8Encode_singleton, ← hb, List.toByteArray_append]
    · cases hx

/-- Decoding gives back the string that was encoded. -/
theorem fromUtf8?_utf8? {s : Str} {b : Bytes} (h : utf8? s = some b) : fromUtf8? b = some s := by
  obtain ⟨cs, rfl, hb⟩ := utf8?_eq_utf8Encode h
  simp [fromUtf8?, hb]

theorem char_cp (c : Char) (h : (cp c).scalar) : (cp c).char h = c := cp_injective (cp_char h)

theorem utf8?_map_cp (cs : List Char) : utf8? (cs.map cp) = some (cs.flatMap String.utf8EncodeChar) := by
  induction cs with
  | nil => rfl
  | cons c cs ih => simp [utf8?, CodePoint.utf8?, scalar_cp, char_cp, ih]

/-- What decodes is the encoding of what it decodes to. -/
theorem utf8?_of_fromUtf8? {s : Str} {b : Bytes} (h : fromUtf8? b = some s) : utf8? s = some b := by
  simp only [fromUtf8?, Option.map_eq_some_iff] at h
  obtain ⟨cs, hcs, rfl⟩ := h
  rw [utf8?_map_cp, Option.some.injEq]
  have hsome : b.toByteArray.utf8Decode?.isSome := by simp [hcs]
  have hget := ByteArray.utf8Encode_get_utf8Decode? (b := b.toByteArray) (h := hsome)
  simp only [hcs, Option.get_some] at hget
  exact List.toByteArray_inj.mp hget

theorem fromUtf8?_eq_some_iff {s : Str} {b : Bytes} : fromUtf8? b = some s ↔ utf8? s = some b :=
  ⟨utf8?_of_fromUtf8?, fromUtf8?_utf8?⟩

theorem utf8?_injective {s t : Str} {b : Bytes} (hs : utf8? s = some b) (ht : utf8? t = some b) : s = t := by
  have := (fromUtf8?_utf8? hs).symm.trans (fromUtf8?_utf8? ht)
  simpa using this

theorem utf8?_ascii {s : Str} (h : ∀ c ∈ s, c.val < 0x80) : ∃ b, utf8? s = some b ∧ b.length = s.length := by
  induction s with
  | nil => exact ⟨[], rfl, rfl⟩
  | cons c s ih =>
    obtain ⟨b, hb, hl⟩ := ih fun d hd => h d (by simp [hd])
    have hc : c.val < 0x80 := h c (by simp)
    have hs : c.scalar := scalar_of_lt (by omega)
    have hsize : (c.char hs).utf8Size = 1 := by
      have hv : (c.char hs).val.toNat = c.val := by simp [CodePoint.char, Char.ofNatAux]
      rw [Char.utf8Size_eq_one_iff, UInt32.le_iff_toNat_le, hv]
      exact Nat.lt_succ_iff.mp hc
    refine ⟨String.utf8EncodeChar (c.char hs) ++ b, by simp [utf8?, CodePoint.utf8?, hs, hb], ?_⟩
    simp [hl, hsize]
    omega

/-! ## UTF-16 -/

theorem units_lt {c : CodePoint} {u : Nat} (h : u ∈ c.units) : u < 0x10000 := by
  have := c.isLt
  simp only [CodePoint.units] at h
  split at h <;> simp at h <;> omega

/-- The first code unit tells whether a second follows, and together they give the code point. -/
theorem units_append_inj {c d : CodePoint} {s t : List Nat} (hc : c.scalar) (hd : d.scalar)
    (h : c.units ++ s = d.units ++ t) : c = d ∧ s = t := by
  have hcl := c.isLt
  have hdl := d.isLt
  simp only [CodePoint.scalar] at hc hd
  simp only [CodePoint.units] at h
  split at h <;> split at h <;> simp at h
  · exact ⟨Fin.ext h.1, h.2⟩
  · omega
  · omega
  · exact ⟨Fin.ext (by omega), h.2.2⟩

theorem utf16Units_injective {s t : Str} (hs : Clean s) (ht : Clean t) (h : utf16Units s = utf16Units t) :
    s = t := by
  induction s generalizing t with
  | nil =>
    cases t with
    | nil => rfl
    | cons d t => simp [utf16Units, CodePoint.units] at h; split at h <;> simp at h
  | cons c s ih =>
    cases t with
    | nil => simp [utf16Units, CodePoint.units] at h; split at h <;> simp at h
    | cons d t =>
      rw [clean_cons] at hs ht
      simp only [utf16Units, List.flatMap_cons] at h
      obtain ⟨rfl, h'⟩ := units_append_inj hs.1 ht.1 h
      rw [ih hs.2 ht.2 h']

/-- The big-endian octets of code units. -/
def unitBytes (us : List Nat) : Bytes := us.flatMap fun u => [UInt8.ofNat (u / 256), UInt8.ofNat (u % 256)]

theorem unitBytes_cons (u : Nat) (us : List Nat) :
    unitBytes (u :: us) = UInt8.ofNat (u / 256) :: UInt8.ofNat (u % 256) :: unitBytes us := rfl

/-- Octet order of UTF-16BE is code-unit order. -/
theorem unitBytes_lt_iff {us vs : List Nat} (hu : ∀ u ∈ us, u < 0x10000) (hv : ∀ v ∈ vs, v < 0x10000) :
    unitBytes us < unitBytes vs ↔ us < vs := by
  induction us generalizing vs with
  | nil => cases vs <;> simp [unitBytes]
  | cons u us ih =>
    cases vs with
    | nil => simp [unitBytes]
    | cons v vs =>
      have h1 : u < 0x10000 := hu u (by simp)
      have h2 : v < 0x10000 := hv v (by simp)
      rw [unitBytes_cons, unitBytes_cons, List.cons_lt_cons_iff, List.cons_lt_cons_iff, List.cons_lt_cons_iff,
        ih (fun x hx => hu x (by simp [hx])) (fun x hx => hv x (by simp [hx]))]
      have e1 : (UInt8.ofNat (u / 256)).toNat = u / 256 := by simp; omega
      have e2 : (UInt8.ofNat (v / 256)).toNat = v / 256 := by simp; omega
      have e3 : (UInt8.ofNat (u % 256)).toNat = u % 256 := by simp
      have e4 : (UInt8.ofNat (v % 256)).toNat = v % 256 := by simp
      rw [UInt8.lt_iff_toNat_lt, UInt8.lt_iff_toNat_lt, ← UInt8.toNat_inj, ← UInt8.toNat_inj, e1, e2, e3, e4]
      constructor
      · rintro (h | ⟨h, h' | ⟨h', h''⟩⟩)
        · exact .inl (by omega)
        · exact .inl (by omega)
        · exact .inr ⟨by omega, h''⟩
      · rintro (h | ⟨rfl, h⟩)
        · rcases Nat.lt_or_ge (u / 256) (v / 256) with h' | h'
          · exact .inl h'
          · exact .inr ⟨by omega, .inl (by omega)⟩
        · exact .inr ⟨rfl, .inr ⟨rfl, h⟩⟩

theorem utf16Units_lt {s : Str} {u : Nat} (h : u ∈ utf16Units s) : u < 0x10000 := by
  simp only [utf16Units, List.mem_flatMap] at h
  obtain ⟨c, _, hc⟩ := h
  exact units_lt hc

theorem utf16be?_eq_some_iff {s : Str} {b : Bytes} :
    utf16be? s = some b ↔ Clean s ∧ b = unitBytes (utf16Units s) := by
  simp only [utf16be?, unitBytes]
  split <;> simp_all [eq_comm]

/-! ## Decimal integers -/

theorem isDigit_cp (c : Char) : isDigit (cp c) = c.isDigit := by
  rw [Bool.eq_iff_iff]
  simp only [isDigit, Bool.and_eq_true, decide_eq_true_eq]
  simp [cp, Char.isDigit, UInt32.le_iff_toNat_le]

theorem decimal_isDigit {n : Nat} {c : CodePoint} (h : c ∈ decimal n) : isDigit c = true := by
  simp only [decimal, List.mem_map] at h
  obtain ⟨a, ha, rfl⟩ := h
  rw [isDigit_cp]
  exact Nat.isDigit_of_mem_toDigits (by decide) (by decide) ha

theorem decimal_ne_nil (n : Nat) : decimal n ≠ [] := by
  simp [decimal, Nat.toDigits_ne_nil]

theorem digitsVal_append (s : Str) (d : CodePoint) :
    digitsVal (s ++ [d]) = 10 * digitsVal s + (d.val - 0x30) := by
  simp [digitsVal]

theorem decimal_eq (n : Nat) :
    decimal n = if n < 10 then [hexDigit n] else decimal (n / 10) ++ [hexDigit (n % 10)] := by
  simp only [decimal]
  rw [Nat.toDigits_eq_if (by decide)]
  split <;> simp [hexDigit]

theorem hexDigit_digit : ∀ n < 10, (hexDigit n).val - 0x30 = n := by decide

/-- The digits of `n` read back as `n`. -/
@[simp] theorem digitsVal_decimal (n : Nat) : digitsVal (decimal n) = n := by
  induction n using Nat.strong_induction_on with
  | _ n ih =>
    rw [decimal_eq]
    split
    · rename_i h; simp [digitsVal, hexDigit_digit n h]
    · rw [digitsVal_append, ih (n / 10) (by omega), hexDigit_digit _ (Nat.mod_lt _ (by decide))]
      omega

/-- The first digit is a zero only for zero itself, which is one digit long. -/
theorem decimal_head (n : Nat) :
    decimal n = [cp '0'] ∨ ∃ d rest, decimal n = d :: rest ∧ 0x31 ≤ d.val ∧ d.val ≤ 0x39 ∧ (∀ c ∈ rest, isDigit c) := by
  induction n using Nat.strong_induction_on with
  | _ n ih =>
    rw [decimal_eq]
    split
    · rename_i h
      by_cases h0 : n = 0
      · subst h0; exact .inl rfl
      · have : ∀ m < 10, m ≠ 0 → 0x31 ≤ (hexDigit m).val ∧ (hexDigit m).val ≤ 0x39 := by decide
        obtain ⟨h1, h2⟩ := this n h h0
        exact .inr ⟨_, [], rfl, h1, h2, by simp⟩
    · rename_i h
      have hd : isDigit (hexDigit (n % 10)) = true := by
        have : ∀ m < 10, isDigit (hexDigit m) = true := by decide
        exact this _ (Nat.mod_lt _ (by decide))
      right
      rcases ih (n / 10) (by omega) with h0 | ⟨d, rest, he, h1, h2, h3⟩
      · have := congrArg digitsVal h0
        simp only [digitsVal_decimal] at this
        have hz : digitsVal [cp '0'] = 0 := by decide
        omega
      · refine ⟨d, rest ++ [hexDigit (n % 10)], by simp [he], h1, h2, ?_⟩
        intro c hc
        simp only [List.mem_append, List.mem_singleton] at hc
        rcases hc with hc | rfl
        · exact h3 c hc
        · exact hd

theorem decimal_injective : Function.Injective decimal := by
  intro a b h
  have := congrArg digitsVal h
  simpa using this

theorem isDigit_val_lt {c : CodePoint} (h : isDigit c = true) : c.val < 0x80 := by
  simp [isDigit] at h; omega

theorem strInt_val_lt {i : Int} {c : CodePoint} (h : c ∈ strInt i) : c.val < 0x80 := by
  cases i with
  | ofNat n => exact isDigit_val_lt (decimal_isDigit h)
  | negSucc n =>
    simp only [strInt, List.mem_cons] at h
    rcases h with rfl | h
    · decide
    · exact isDigit_val_lt (decimal_isDigit h)

theorem strInt_injective : Function.Injective strInt := by
  have hminus : ∀ n m, decimal n ≠ cp '-' :: decimal m := by
    intro n m h
    have hdigit : isDigit (cp '-') = true := decimal_isDigit (by rw [h]; simp)
    exact absurd hdigit (by decide)
  intro i j h
  cases i with
  | ofNat n =>
    cases j with
    | ofNat m => exact congrArg Int.ofNat (decimal_injective h)
    | negSucc m => exact absurd h (hminus _ _)
  | negSucc n =>
    cases j with
    | ofNat m => exact absurd h.symm (hminus _ _)
    | negSucc m => exact congrArg Int.negSucc (Nat.succ.inj (decimal_injective (List.cons.inj h).2))

@[simp] theorem clean_strInt (i : Int) : Clean (strInt i) := clean_of_ascii fun _ => strInt_val_lt

/-! ## What `bytes.fromhex` and `int` accept can be encoded -/

theorem hexVal?_ascii {c : CodePoint} {n : Nat} (h : hexVal? c = some n) : c.val < 0x80 := by
  unfold hexVal? at h
  split_ifs at h <;> omega

theorem fromHex?_ascii {s : Str} {b : Bytes} (h : fromHex? s = some b) {c : CodePoint} (hc : c ∈ s) : c.val < 0x80 := by
  fun_induction fromHex? s generalizing b with
  | case1 => simp at hc
  | case2 d rest hd ih =>
    rcases List.mem_cons.mp hc with rfl | hc
    · simp only [isAsciiSpace, Bool.or_eq_true, Bool.and_eq_true, decide_eq_true_eq] at hd
      omega
    · exact ih h hc
  | case3 => simp at h
  | case4 d hd e rest ih =>
    simp only [Option.bind_eq_bind, Option.bind_eq_some_iff] at h
    obtain ⟨_, hd', _, he, bs, hbs, _⟩ := h
    rcases List.mem_cons.mp hc with rfl | hc
    · exact hexVal?_ascii hd'
    · rcases List.mem_cons.mp hc with rfl | hc
      · exact hexVal?_ascii he
      · exact ih hbs hc

theorem fromHex?_clean {s : Str} {b : Bytes} (h : fromHex? s = some b) : Clean s :=
  clean_of_ascii fun _ hc => fromHex?_ascii h hc

/-- A code point other than the separator is in one of the parts. -/
theorem mem_splitOn {s : Str} {sep c : CodePoint} (hc : c ∈ s) (hne : c ≠ sep) : ∃ g ∈ s.splitOn sep, c ∈ g := by
  have hjoin : [sep].intercalate (s.splitOn sep) = s := List.intercalate_splitOn sep
  rw [← hjoin] at hc
  generalize s.splitOn sep = groups at hc
  induction groups with
  | nil => simp [List.intercalate] at hc
  | cons g gs ih =>
    cases gs with
    | nil => exact ⟨g, by simp, by simpa [List.intercalate] using hc⟩
    | cons g' gs =>
      rw [List.intercalate_cons_cons] at hc
      simp only [List.append_assoc, List.mem_append, List.mem_singleton, hne, false_or] at hc
      rcases hc with h | h
      · exact ⟨g, by simp, h⟩
      · obtain ⟨g'', hg'', hc''⟩ := ih h
        exact ⟨g'', List.mem_cons_of_mem _ hg'', hc''⟩

theorem mem_dropWhile {l : Str} {p : CodePoint → Bool} {c : CodePoint} (hc : c ∈ l) (hp : p c = false) :
    c ∈ l.dropWhile p := by
  induction l with
  | nil => simp at hc
  | cons d l ih =>
    rw [List.dropWhile_cons]
    split
    · rename_i hd
      rcases List.mem_cons.mp hc with rfl | hc
      · rw [hp] at hd; cases hd
      · exact ih hc
    · exact hc

theorem literalDigits?_mem {s ds : Str} (h : literalDigits? s = some ds) {c : CodePoint} (hc : c ∈ s) (hne : c ≠ cp '_') :
    isDigit c = true := by
  unfold literalDigits? at h
  dsimp only at h
  split at h
  · rename_i hall
    obtain ⟨g, hg, hcg⟩ := mem_splitOn hc hne
    simp only [List.all_eq_true, Bool.and_eq_true] at hall
    exact (hall g hg).2 c hcg
  · cases h

variable [Interp]

/-- A surrogate becomes a code point that `int` refuses. -/
theorem toAsciiDecimal_surrogate {c : CodePoint} (hc : ¬ c.scalar) : toAsciiDecimal c = cp '?' := by
  obtain ⟨h₁, h₂⟩ := not_not.mp hc
  rw [toAsciiDecimal, if_neg (by omega), Interp.space_surrogate c h₁ h₂, Interp.decimal_surrogate c h₁ h₂]
  rfl

theorem int?_clean {s : Str} {i : Int} (h : int? s = some i) : Clean s := by
  intro c hc
  by_contra hs
  have hmem : cp '?' ∈ s.map toAsciiDecimal := List.mem_map.mpr ⟨c, hc, toAsciiDecimal_surrogate hs⟩
  have ht : cp '?' ∈ ((s.map toAsciiDecimal).dropWhile isAsciiSpace).rdropWhile isAsciiSpace := by
    rw [List.rdropWhile, List.mem_reverse]
    exact mem_dropWhile (List.mem_reverse.mpr (mem_dropWhile hmem (by decide))) (by decide)
  have hbody : ∀ r : Str, cp '?' ∈ r → literalDigits? r = none := by
    intro r hr
    cases hl : literalDigits? r with
    | none => rfl
    | some ds => exact absurd (literalDigits?_mem hl hr (by decide)) (by decide)
  unfold int? at h
  dsimp only at h
  generalize ((s.map toAsciiDecimal).dropWhile isAsciiSpace).rdropWhile isAsciiSpace = t at h ht
  cases t with
  | nil => cases h
  | cons d r =>
    simp only at h
    have hr : d ≠ cp '?' → cp '?' ∈ r := fun hd => (List.mem_cons.mp ht).resolve_left (Ne.symm hd)
    split at h
    · rename_i hd
      rw [hbody r (hr (by rw [hd]; decide))] at h
      cases h
    · split at h
      · rename_i hd
        rw [hbody r (hr (by rw [hd]; decide))] at h
        cases h
      · rw [hbody (d :: r) ht] at h
        cases h

omit [Interp] in
theorem literalDigits?_digits {ds : Str} (hne : ds ≠ []) (hds : ∀ c ∈ ds, isDigit c = true) :
    literalDigits? ds = some ds := by
  have hsplit : ds.splitOn (cp '_') = [ds] := List.splitOn_eq_singleton fun h => absurd (hds _ h) (by decide)
  have hall : ds.all isDigit = true := List.all_eq_true.mpr hds
  simp [literalDigits?, hsplit, hall, hne]

omit [Interp] in
theorem literalDigits?_decimal (n : Nat) : literalDigits? (decimal n) = some (decimal n) :=
  literalDigits?_digits (decimal_ne_nil n) fun _ hc => decimal_isDigit hc

omit [Interp] in
theorem isDigit_not_space {c : CodePoint} (h : isDigit c = true) : isAsciiSpace c = false := by
  simp only [isDigit, Bool.and_eq_true, decide_eq_true_eq] at h
  simp only [isAsciiSpace, Bool.or_eq_false_iff, Bool.and_eq_false_iff, decide_eq_false_iff_not]
  omega

omit [Interp] in
theorem strInt_not_space {i : Int} {c : CodePoint} (h : c ∈ strInt i) : isAsciiSpace c = false := by
  cases i with
  | ofNat n => exact isDigit_not_space (decimal_isDigit h)
  | negSucc n =>
    rcases List.mem_cons.mp h with rfl | h
    · decide
    · exact isDigit_not_space (decimal_isDigit h)

/-- `int` of ASCII text without spaces is what the literal says. -/
theorem int?_eq {c : CodePoint} {r : Str} (hascii : ∀ d ∈ c :: r, d.val < 128)
    (hspace : ∀ d ∈ c :: r, isAsciiSpace d = false) :
    int? (c :: r) =
      if c = cp '-' then ((literalDigits? r).bind fun ds =>
        if ds.length ≤ maxStrDigits then some (digitsVal ds) else none).map fun n => -(n : Int)
      else if c = cp '+' then ((literalDigits? r).bind fun ds =>
        if ds.length ≤ maxStrDigits then some (digitsVal ds) else none).map fun n => (n : Int)
      else ((literalDigits? (c :: r)).bind fun ds =>
        if ds.length ≤ maxStrDigits then some (digitsVal ds) else none).map fun n => (n : Int) := by
  have hmap : (c :: r).map toAsciiDecimal = c :: r :=
    (List.map_congr_left fun d hd => if_pos (hascii d hd)).trans (List.map_id _)
  have hdrop : (c :: r).dropWhile isAsciiSpace = c :: r :=
    List.dropWhile_eq_self_iff.mpr fun hl => Bool.eq_false_iff.mp (hspace _ (List.getElem_mem hl))
  have hrdrop : (c :: r).rdropWhile isAsciiSpace = c :: r :=
    List.rdropWhile_eq_self_iff.mpr fun hl => Bool.eq_false_iff.mp (hspace _ (List.getLast_mem hl))
  rw [int?, hmap, hdrop, hrdrop]

/-- `int` of ASCII digits: their value, when there are not too many. -/
theorem int?_digits {ds : Str} (hne : ds ≠ []) (hds : ∀ c ∈ ds, isDigit c = true) :
    int? ds = if ds.length ≤ maxStrDigits then some (digitsVal ds : Int) else none := by
  obtain ⟨c, r, rfl⟩ := List.exists_cons_of_ne_nil hne
  have hc : isDigit c = true := hds c (by simp)
  have hminus : c ≠ cp '-' := by
    rintro rfl
    exact absurd hc (by decide)
  have hplus : c ≠ cp '+' := by
    rintro rfl
    exact absurd hc (by decide)
  rw [int?_eq (fun d hd => isDigit_val_lt (hds d hd)) fun d hd => isDigit_not_space (hds d hd), if_neg hminus, if_neg hplus,
    literalDigits?_digits hne hds, Option.bind_some]
  split <;> rfl

/-- `int(str(i)) == i`, for an integer that `str` prints. -/
theorem int?_strInt {i : Int} (h : (decimal i.natAbs).length ≤ maxStrDigits) : int? (strInt i) = some i := by
  cases i with
  | ofNat n =>
    have hn : (decimal n).length ≤ maxStrDigits := h
    rw [strInt, int?_digits (decimal_ne_nil n) fun _ hc => decimal_isDigit hc, if_pos hn, digitsVal_decimal]
    rfl
  | negSucc n =>
    have hn : (decimal (n + 1)).length ≤ maxStrDigits := h
    have hascii : ∀ d ∈ strInt (.negSucc n), d.val < 128 := fun d hd => strInt_val_lt hd
    have hspace : ∀ d ∈ strInt (.negSucc n), isAsciiSpace d = false := fun d hd => strInt_not_space hd
    rw [strInt] at hascii hspace ⊢
    rw [int?_eq hascii hspace, if_pos rfl, literalDigits?_decimal, Option.bind_some, if_pos hn, digitsVal_decimal]
    rfl

end Py
