/-
Octets: integers of a fixed width, slices, and what stands where.

A slice is cut at the end of the buffer and never raises, so a reader has to
look whether what it wants is all there. `At` says that it is, and a reader
of a layout is described by what stands at the position it reads from.
-/
import Ca2a.Py.Text
import Mathlib.Data.List.Infix

namespace Py

/-! ## Integers -/

/-- `int.from_bytes(b, "little")` -/
def ofLittle : Bytes → Nat
  | [] => 0
  | x :: b => x.toNat + 256 * ofLittle b

/-- The `w` octets of a number, the least significant first. -/
def toLittle : (w n : Nat) → Bytes
  | 0, _ => []
  | w + 1, n => UInt8.ofNat n :: toLittle w (n / 256)

/-- `int.from_bytes(b, "big")` -/
def ofBig (b : Bytes) : Nat := ofLittle b.reverse

/-- The `w` octets of a number, the most significant first. -/
def toBig (w n : Nat) : Bytes := (toLittle w n).reverse

@[simp] theorem length_toLittle (w n : Nat) : (toLittle w n).length = w := by
  induction w generalizing n with
  | zero => rfl
  | succ w ih => rw [toLittle, List.length_cons, ih]

@[simp] theorem length_toBig (w n : Nat) : (toBig w n).length = w := by rw [toBig, List.length_reverse, length_toLittle]

theorem ofLittle_lt (b : Bytes) : ofLittle b < 256 ^ b.length := by
  induction b with
  | nil => exact Nat.one_pos
  | cons x b ih =>
    have hx := x.toNat_lt
    rw [ofLittle, List.length_cons, Nat.pow_succ]
    omega

theorem ofLittle_toLittle {w n : Nat} (h : n < 256 ^ w) : ofLittle (toLittle w n) = n := by
  induction w generalizing n with
  | zero => exact (Nat.lt_one_iff.mp h).symm
  | succ w ih =>
    have hrest : n / 256 < 256 ^ w := by
      rw [Nat.pow_succ] at h
      omega
    rw [toLittle, ofLittle, ih hrest, UInt8.toNat_ofNat']
    omega

theorem toLittle_ofLittle (b : Bytes) : toLittle b.length (ofLittle b) = b := by
  induction b with
  | nil => rfl
  | cons x b ih =>
    have hx := x.toNat_lt
    have hfirst : UInt8.ofNat (x.toNat + 256 * ofLittle b) = x := by
      rw [← UInt8.toNat_inj, UInt8.toNat_ofNat']
      omega
    have hrest : (x.toNat + 256 * ofLittle b) / 256 = ofLittle b := by omega
    rw [List.length_cons, ofLittle, toLittle, hfirst, hrest, ih]

/-- Octets are an integer's exactly when they read as it. -/
theorem eq_toLittle_iff {b : Bytes} {w n : Nat} (hb : b.length = w) (hn : n < 256 ^ w) :
    b = toLittle w n ↔ ofLittle b = n := by
  constructor
  · intro h
    rw [h, ofLittle_toLittle hn]
  · intro h
    rw [← h, ← hb, toLittle_ofLittle]

theorem ofBig_lt (b : Bytes) : ofBig b < 256 ^ b.length := by
  have h := ofLittle_lt b.reverse
  rw [List.length_reverse] at h
  exact h

theorem ofBig_toBig {w n : Nat} (h : n < 256 ^ w) : ofBig (toBig w n) = n := by
  rw [ofBig, toBig, List.reverse_reverse, ofLittle_toLittle h]

theorem eq_toBig_iff {b : Bytes} {w n : Nat} (hb : b.length = w) (hn : n < 256 ^ w) : b = toBig w n ↔ ofBig b = n := by
  rw [toBig, ofBig, ← eq_toLittle_iff (by rw [List.length_reverse, hb]) hn, List.reverse_eq_iff]

/-! ## Slices -/

/-- `buf[i:j]` -/
def slice (buf : Bytes) (i j : Nat) : Bytes := (buf.drop i).take (j - i)

theorem length_slice {buf : Bytes} {i j : Nat} (hj : j ≤ buf.length) : (slice buf i j).length = j - i := by
  rw [slice, List.length_take, List.length_drop]
  omega

/-- `b` stands at `pos`, all of it. -/
def At (buf : Bytes) (pos : Nat) (b : Bytes) : Prop := pos + b.length ≤ buf.length ∧ slice buf pos (pos + b.length) = b

section
variable {buf b c : Bytes} {pos : Nat}

@[simp] theorem at_nil : At buf pos [] ↔ pos ≤ buf.length := by simp [At, slice]

/-- A slice within the buffer stands where it was taken. -/
theorem at_slice {i j : Nat} (hij : i ≤ j) (hj : j ≤ buf.length) : At buf i (slice buf i j) := by
  rw [At, length_slice hj, Nat.add_sub_cancel' hij]
  exact ⟨hj, rfl⟩

/-- What a slice within the buffer cuts out, and where it ends. -/
theorem exists_at_slice {i j : Nat} (hij : i ≤ j) (hj : j ≤ buf.length) : ∃ b, slice buf i j = b ∧ At buf i b ∧ i + b.length = j :=
  ⟨_, rfl, at_slice hij hj, by rw [length_slice hj, Nat.add_sub_cancel' hij]⟩

/-- What stands at a position is the slice that is as long. -/
theorem At.slice_eq {j : Nat} (h : At buf pos b) (hj : j = pos + b.length) : slice buf pos j = b := hj ▸ h.2

theorem at_iff : At buf pos b ↔ pos ≤ buf.length ∧ b <+: buf.drop pos := by
  rw [At, slice, Nat.add_sub_cancel_left, List.prefix_iff_eq_take]
  constructor
  · intro h
    exact ⟨by omega, h.2.symm⟩
  · intro h
    have hlength := congrArg List.length h.2
    rw [List.length_take, List.length_drop] at hlength
    exact ⟨by omega, h.2.symm⟩

/-- **Parts of a layout stand one after another.** -/
theorem at_append : At buf pos (b ++ c) ↔ At buf pos b ∧ At buf (pos + b.length) c := by
  rw [at_iff, at_iff, at_iff, ← List.drop_drop]
  constructor
  · intro h
    obtain ⟨hpos, rest, hrest⟩ := h
    have hlength := congrArg List.length hrest
    simp only [List.length_append, List.length_drop] at hlength
    rw [← hrest, List.append_assoc]
    exact ⟨⟨hpos, List.prefix_append _ _⟩, by omega, by simp⟩
  · intro h
    obtain ⟨⟨hpos, rest, hrest⟩, _, hc⟩ := h
    rw [← hrest, List.drop_left] at hc
    obtain ⟨rest', rfl⟩ := hc
    exact ⟨hpos, rest', by rw [← hrest, List.append_assoc]⟩

/-- What stands at the start is a prefix. -/
theorem at_zero : At buf 0 b ↔ ∃ rest, buf = b ++ rest := by
  rw [at_iff, List.drop_zero]
  exact ⟨fun h => h.2.imp fun _ => Eq.symm, fun h => ⟨Nat.zero_le _, h.imp fun _ => Eq.symm⟩⟩

theorem At.le (h : At buf pos b) : pos + b.length ≤ buf.length := h.1

/-- A byte that stands at a position is found there. -/
theorem at_singleton {x : UInt8} : At buf pos [x] ↔ buf[pos]? = some x := by
  rw [at_iff, ← List.head?_drop]
  cases hrest : buf.drop pos with
  | nil => simp
  | cons y rest =>
    have hpos : pos ≤ buf.length := by
      have := congrArg List.length hrest
      rw [List.length_drop, List.length_cons] at this
      omega
    simp [hpos, eq_comm]

theorem ofBig_slice_lt {w : Nat} (h : pos + w ≤ buf.length) : ofBig (slice buf pos (pos + w)) < 256 ^ w := by
  have hlt := ofBig_lt (slice buf pos (pos + w))
  rwa [length_slice h, Nat.add_sub_cancel_left] at hlt

theorem ofLittle_slice_lt {w : Nat} (h : pos + w ≤ buf.length) : ofLittle (slice buf pos (pos + w)) < 256 ^ w := by
  have hlt := ofLittle_lt (slice buf pos (pos + w))
  rwa [length_slice h, Nat.add_sub_cancel_left] at hlt

/-- An integer stands at a position exactly when the slice is as wide and reads as it. -/
theorem at_toBig {w n : Nat} (hn : n < 256 ^ w) :
    At buf pos (toBig w n) ↔ pos + w ≤ buf.length ∧ ofBig (slice buf pos (pos + w)) = n := by
  rw [At, length_toBig]
  refine and_congr_right fun hle => eq_toBig_iff ?_ hn
  rw [length_slice hle, Nat.add_sub_cancel_left]

theorem at_toLittle {w n : Nat} (hn : n < 256 ^ w) :
    At buf pos (toLittle w n) ↔ pos + w ≤ buf.length ∧ ofLittle (slice buf pos (pos + w)) = n := by
  rw [At, length_toLittle]
  refine and_congr_right fun hle => eq_toLittle_iff ?_ hn
  rw [length_slice hle, Nat.add_sub_cancel_left]

end

end Py
