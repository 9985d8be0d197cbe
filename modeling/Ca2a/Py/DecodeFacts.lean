/-
`json.loads` gives back what `json.dumps` wrote of an object and was encoded:
the text is ASCII and begins with a brace, so the octets are taken for UTF-8.
-/
import Ca2a.Py.Decode
import Ca2a.Py.PrintSize

namespace Py

/-- The octets of ASCII. -/
theorem utf8?_ascii_eq {s : Str} (h : ∀ c ∈ s, c.val < 0x80) : utf8? s = some (s.map fun c => UInt8.ofNat c.val) := by
  induction s with
  | nil => rfl
  | cons c s ih =>
    have hc := h c List.mem_cons_self
    have hscalar : c.scalar := scalar_of_lt (by omega)
    have hchar : String.utf8EncodeChar (c.char hscalar) = [UInt8.ofNat c.val] := by
      have hval : (c.char hscalar).val.toNat = c.val := rfl
      simp [String.utf8EncodeChar, hval, show c.val ≤ 0x7f by omega]
    simp [utf8?, CodePoint.utf8?, hscalar, hchar, ih fun d hd => h d (List.mem_cons_of_mem _ hd)]

theorem decodeWith_ascii {s : Str} (h : ∀ c ∈ s, c.val < 0x80) {n : Nat} (hn : s.length ≤ n) :
    decodeWith utf8Char? n (s.map fun c => UInt8.ofNat c.val) = some s := by
  induction s generalizing n with
  | nil => cases n <;> rfl
  | cons c s ih =>
    have hc := h c List.mem_cons_self
    cases n with
    | zero => simp at hn
    | succ n =>
      have hlead : (UInt8.ofNat c.val).toNat = c.val := by
        rw [UInt8.toNat_ofNat']
        omega
      have hread : utf8Char? (UInt8.ofNat c.val :: s.map fun c => UInt8.ofNat c.val) =
          some (c, s.map fun c => UInt8.ofNat c.val) := by
        simp only [utf8Char?, hlead, hc, if_true, codePoint?]
        rw [dif_pos ⟨Nat.zero_le _, c.isLt⟩]
      simp [decodeWith, hread, ih (fun d hd => h d (List.mem_cons_of_mem _ hd)) (by simpa using hn)]

theorem detectEncoding_brace {x : UInt8} (hx : x ≠ 0) (b : Bytes) : detectEncoding (0x7B :: x :: b) = .utf8 := by
  rcases b with _ | ⟨y, _ | ⟨z, b⟩⟩ <;> simp [detectEncoding, hx]

section
variable {ε : Type} [Interp]

/-- How the text of an object begins. -/
theorem dumps_obj_head (d : Dict Json) : ∃ c r, dumps (.obj d) = cp '{' :: c :: r ∧ (c = cp '"' ∨ c = cp '}') := by
  rw [dumps, Style.print, Style.printFields_eq]
  cases d with
  | nil => exact ⟨cp '}', [], by simp [join], .inr rfl⟩
  | cons kv d =>
    refine ⟨cp '"', kv.1.flatMap dumpsStyle.esc ++ cp '"' :: (dumpsStyle.colon ++ (dumpsStyle.print kv.2 ++
      ((d.map dumpsStyle.field).flatMap (fun y => dumpsStyle.comma ++ y) ++ [cp '}']))), ?_, .inl rfl⟩
    simp [join, Style.field, Style.quote]

/-- **The octets of a written object read as that object.** -/
theorem jsonLoads_dumps {overflows : Str → Bool} {d : Dict Json} (hd : Printable (.obj d))
    (hstack : overflows (dumps (.obj d)) = false) {b : Bytes} (hb : utf8? (dumps (.obj d)) = some b) :
    jsonLoads (ε := ε) overflows b = .ok (.obj d) := by
  have hascii := dumps_ascii hd.noFloat
  rw [utf8?_ascii_eq hascii] at hb
  obtain rfl := Option.some.inj hb
  have hencoding : detectEncoding ((dumps (.obj d)).map fun c => UInt8.ofNat c.val) = .utf8 := by
    obtain ⟨c, r, htext, hc⟩ := dumps_obj_head d
    rw [htext]
    rcases hc with rfl | rfl <;> exact detectEncoding_brace (by decide) _
  have hdecoded : Encoding.decode? .utf8 ((dumps (.obj d)).map fun c => UInt8.ofNat c.val) = some (dumps (.obj d)) :=
    decodeWith_ascii hascii (by rw [List.length_map])
  rw [jsonLoads, hencoding, hdecoded]
  simp only [hstack, Bool.false_eq_true, if_false]
  exact loads_print dumpsStyle_reads dictHook (fun d h => dictHook_nodup d h) hd

end

end Py
