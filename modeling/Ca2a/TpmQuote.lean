/-
`TpmQuote.parse`: what is appraised of a TPM quote (`TPMS_ATTEST`).

The position is moved by lengths that the quote declares, once without a look
at the buffer, and a loop runs as often as the quote says. The reads are
recorded, so that it can be said that none leaves the buffer (`ReadsWithin`) and
that their number does not grow with the declared count. A quote is returned
exactly when the buffer starts with a layout, whose fields it then has; a
layout cut short is none, because layouts are prefix-free.
-/
import Ca2a.Errors
import Ca2a.Py.Buffer
import Ca2a.Py.Traced

namespace Ca2a

open Py

/-! ## The parser -/

/-- What is read of a buffer. -/
structure Span where
  start : Nat
  stop : Nat
  deriving DecidableEq

/-- `buf[i:j]` -/
def readSlice (buf : Bytes) (i j : Nat) : Traced Span Exc Bytes := Traced.step ⟨i, j⟩ (.ok (slice buf i j))

/-- `buf[i]` -/
def readByte (buf : Bytes) (i : Nat) : Traced Span Exc UInt8 :=
  Traced.step ⟨i, i + 1⟩
    (match buf[i]? with
    | some x => .ok x
    | none => .error (.builtin .indexError (lit "index out of range")))

/-- `CLOCK_INFO_LEN` -/
def clockInfoLen : Nat := 17

/-- `FIRMWARE_VERSION_LEN` -/
def firmwareVersionLen : Nat := 8

/-- `_read_u16` -/
def readU16 (buf : Bytes) (pos : Nat) : Traced Span Exc (Nat × Nat) :=
  if pos + 2 > buf.length then
    Traced.lift (raise .attestationFailed (lit "TPM quote truncated reading a 16-bit field"))
  else do
    let field ← readSlice buf pos (pos + 2)
    pure (ofBig field, pos + 2)

/-- `_read_2b` -/
def read2b (buf : Bytes) (pos : Nat) : Traced Span Exc (Bytes × Nat) := do
  let (size, pos) ← readU16 buf pos
  if pos + size > buf.length then
    Traced.lift (raise .attestationFailed (lit "TPM quote truncated reading a sized buffer"))
  else do
    let field ← readSlice buf pos (pos + size)
    pure (field, pos + size)

/-- The loop of `parse`. -/
def skipSelections (blob : Bytes) : (count pos : Nat) → Traced Span Exc Nat
  | 0, pos => pure pos
  | count + 1, pos =>
    if pos + 3 > blob.length then
      Traced.lift (raise .attestationFailed (lit "TPM quote truncated reading a PCR selection"))
    else do
      let sizeOfSelect ← readByte blob (pos + 2)
      skipSelections blob count (pos + (3 + sizeOfSelect.toNat))

/-- `TpmQuote` -/
structure TpmQuote where
  magic : Nat
  attestType : Nat
  qualifyingData : Bytes
  pcrDigest : Bytes
  raw : Bytes
  deriving DecidableEq

/-- `TpmQuote.parse` -/
def TpmQuote.parse (blob : Bytes) : Traced Span Exc TpmQuote :=
  if blob.length < 6 then Traced.lift (raise .attestationFailed (lit "TPM quote too short"))
  else do
    let magic ← readSlice blob 0 4
    let (attestType, pos) ← readU16 blob 4
    let (_, pos) ← read2b blob pos
    let (qualifyingData, pos) ← read2b blob pos
    let pos := pos + (clockInfoLen + firmwareVersionLen)
    if pos + 4 > blob.length then
      Traced.lift (raise .attestationFailed (lit "TPM quote truncated reading PCR selection count"))
    else do
      let count ← readSlice blob pos (pos + 4)
      let pos ← skipSelections blob (ofBig count) (pos + 4)
      let (pcrDigest, _) ← read2b blob pos
      pure { magic := ofBig magic, attestType, qualifyingData, pcrDigest, raw := blob }

/-! ## The layout -/

/-- A `TPM2B`: its size and its octets. -/
def sized (b : Bytes) : Bytes := toBig 2 b.length ++ b

/-- A `TPMS_PCR_SELECTION` -/
structure PcrSelection where
  hashAlg : Nat
  select : Bytes
  hashAlg_lt : hashAlg < 256 ^ 2
  select_lt : select.length < 256 ^ 1

def PcrSelection.encode (s : PcrSelection) : Bytes := toBig 2 s.hashAlg ++ (toBig 1 s.select.length ++ s.select)

/-- A `TPMS_ATTEST` of a quote. -/
structure TpmsAttest where
  magic : Nat
  attestType : Nat
  qualifiedSigner : Bytes
  extraData : Bytes
  clockAndFirmware : Bytes
  pcrSelections : List PcrSelection
  pcrDigest : Bytes
  magic_lt : magic < 256 ^ 4
  attestType_lt : attestType < 256 ^ 2
  qualifiedSigner_lt : qualifiedSigner.length < 256 ^ 2
  extraData_lt : extraData.length < 256 ^ 2
  clockAndFirmware_length : clockAndFirmware.length = 25
  pcrSelections_lt : pcrSelections.length < 256 ^ 4
  pcrDigest_lt : pcrDigest.length < 256 ^ 2

namespace TpmsAttest

def encode (a : TpmsAttest) : Bytes :=
  toBig 4 a.magic ++ (toBig 2 a.attestType ++ (sized a.qualifiedSigner ++ (sized a.extraData ++
    (a.clockAndFirmware ++ (toBig 4 a.pcrSelections.length ++ (a.pcrSelections.flatMap PcrSelection.encode ++
      sized a.pcrDigest))))))

/-- What is appraised of it, in the blob it was found in. -/
def quote (a : TpmsAttest) (blob : Bytes) : TpmQuote where
  magic := a.magic
  attestType := a.attestType
  qualifyingData := a.extraData
  pcrDigest := a.pcrDigest
  raw := blob

end TpmsAttest

theorem length_sized (b : Bytes) : (sized b).length = 2 + b.length := by
  rw [sized, List.length_append, length_toBig]

theorem PcrSelection.length_encode (s : PcrSelection) : s.encode.length = 3 + s.select.length := by
  rw [encode, List.length_append, List.length_append, length_toBig, length_toBig]
  omega

/-! ## Reading within the buffer -/

/-- The computation raises nothing but `AttestationFailed`, what it returns is as stated, it reads the buffer at most
`n` times and never outside of it. -/
structure ReadsWithin {α : Type} (buf : Bytes) (n : Nat) (x : Traced Span Exc α) (post : α → Prop) : Prop where
  spec : Spec x.result post (Exc.isClass .attestationFailed)
  within : ∀ span, .started span ∈ x.trace → span.start ≤ span.stop ∧ span.stop ≤ buf.length
  bound : x.trace.length ≤ 2 * n

section
variable {α β : Type} {buf : Bytes} {pos : Nat}

theorem ReadsWithin.pure {n : Nat} {a : α} {post : α → Prop} (h : post a) : ReadsWithin buf n (pure a) post where
  spec := h
  within := fun _ hspan => absurd hspan List.not_mem_nil
  bound := Nat.zero_le _

theorem ReadsWithin.raise {n : Nat} {message : Str} {post : α → Prop} :
    ReadsWithin buf n (Traced.lift (raise .attestationFailed message)) post where
  spec := rfl
  within := fun _ hspan => absurd hspan List.not_mem_nil
  bound := Nat.zero_le _

theorem ReadsWithin.mono {n m : Nat} {x : Traced Span Exc α} {post post' : α → Prop} (h : ReadsWithin buf n x post) (hn : n ≤ m)
    (hp : ∀ a, post a → post' a) : ReadsWithin buf m x post' where
  spec := h.spec.mono hp fun _ he => he
  within := h.within
  bound := le_trans h.bound (by omega)

theorem ReadsWithin.bind {n m : Nat} {x : Traced Span Exc α} {f : α → Traced Span Exc β} {post : α → Prop} {post' : β → Prop}
    (h : ReadsWithin buf n x post) (hf : ∀ a, post a → ReadsWithin buf m (f a) post') : ReadsWithin buf (n + m) (x >>= f) post' := by
  obtain ⟨trace, result⟩ := x
  cases result with
  | error e => exact ⟨h.spec, h.within, le_trans h.bound (by omega)⟩
  | ok a =>
    have hrest := hf a h.spec
    refine ⟨hrest.spec, fun span hspan => ?_, ?_⟩
    · rcases List.mem_append.mp hspan with hspan | hspan
      · exact h.within span hspan
      · exact hrest.within span hspan
    · have hfirst := h.bound
      have hthen := hrest.bound
      simp only [Bind.bind, List.length_append] at hfirst ⊢
      omega

/-- A slice that is looked after first is all there. -/
theorem readSlice_reads {j : Nat} (hj : pos ≤ j) (hbuf : j ≤ buf.length) :
    ReadsWithin buf 1 (readSlice buf pos j) fun b => b = slice buf pos j where
  spec := rfl
  within := by
    intro span hspan
    obtain rfl : span = ⟨pos, j⟩ := by simpa [readSlice, Traced.step] using hspan
    exact ⟨hj, hbuf⟩
  bound := le_refl _

theorem readByte_reads (hbuf : pos < buf.length) : ReadsWithin buf 1 (readByte buf pos) fun x => buf[pos]? = some x := by
  have hget := List.getElem?_eq_getElem hbuf
  rw [readByte, hget]
  refine ⟨rfl, fun span hspan => ?_, le_refl _⟩
  obtain rfl : span = ⟨pos, pos + 1⟩ := by simpa [Traced.step] using hspan
  exact ⟨Nat.le_succ _, hbuf⟩

theorem readU16_reads : ReadsWithin buf 1 (readU16 buf pos) fun r =>
    r.1 < 256 ^ 2 ∧ At buf pos (toBig 2 r.1) ∧ r.2 = pos + 2 := by
  unfold readU16
  split
  · exact .raise
  · rename_i hle
    refine ReadsWithin.bind (m := 0) (readSlice_reads (by omega) (by omega)) fun field hfield => .pure ?_
    have hlt : ofBig field < 256 ^ 2 := hfield ▸ ofBig_slice_lt (by omega)
    exact ⟨hlt, (at_toBig hlt).mpr ⟨by omega, by rw [hfield]⟩, rfl⟩

theorem read2b_reads : ReadsWithin buf (1 + 1) (read2b buf pos) fun r =>
    r.1.length < 256 ^ 2 ∧ At buf pos (sized r.1) ∧ r.2 = pos + (sized r.1).length := by
  refine readU16_reads.bind (fun size hsize => ?_)
  obtain ⟨size, pos'⟩ := size
  obtain ⟨hlt, hat, hpos⟩ := hsize
  dsimp only at hlt hat hpos ⊢
  subst hpos
  split
  · exact .raise
  · rename_i hle
    refine ReadsWithin.bind (m := 0) (readSlice_reads (by omega) (by omega)) fun field hfield => .pure ?_
    obtain ⟨_, rfl, hat_field, hfield_length⟩ := @exists_at_slice buf (pos + 2) (pos + 2 + size) (by omega) (by omega)
    have hlength : field.length = size := by
      rw [hfield]
      exact Nat.add_left_cancel hfield_length
    refine ⟨hlength ▸ hlt, at_append.mpr ⟨hlength ▸ hat, ?_⟩, ?_⟩
    · rw [length_toBig, hfield]
      exact hat_field
    · rw [length_sized, hlength]
      omega

theorem toBig_one (n : Nat) : toBig 1 n = [UInt8.ofNat n] := rfl

/-- A selection whose size is there and which ends within the buffer is all there. -/
theorem exists_selection {size : UInt8} (hsize : buf[pos + 2]? = some size) (hle : pos + (3 + size.toNat) ≤ buf.length) :
    ∃ s : PcrSelection, At buf pos s.encode ∧ s.encode.length = 3 + size.toNat := by
  obtain ⟨select, _, hat_select, hlength⟩ := @exists_at_slice buf (pos + 3) (pos + 3 + size.toNat) (by omega) (by omega)
  have hselect : select.length = size.toNat := Nat.add_left_cancel hlength
  have halg : ofBig (slice buf pos (pos + 2)) < 256 ^ 2 := ofBig_slice_lt (by omega)
  have hlt : select.length < 256 ^ 1 := by
    rw [hselect]
    exact size.toNat_lt
  refine ⟨⟨ofBig (slice buf pos (pos + 2)), select, halg, hlt⟩, ?_, ?_⟩
  · rw [PcrSelection.encode, at_append, at_append, length_toBig, length_toBig, hselect, toBig_one, UInt8.ofNat_toNat,
      at_singleton]
    exact ⟨(at_toBig halg).mpr ⟨by omega, rfl⟩, hsize, hat_select⟩
  · rw [PcrSelection.length_encode, hselect]

/-- **The loop** raises, or steps over as many selections as are declared. The last of them may reach beyond the buffer;
what is read next tells. -/
theorem skipSelections_reads (count : Nat) : ReadsWithin buf (buf.length - pos) (skipSelections buf count pos) fun pos' =>
    pos' ≤ buf.length → ∃ selections : List PcrSelection, selections.length = count ∧
      At buf pos (selections.flatMap PcrSelection.encode) ∧
      pos' = pos + (selections.flatMap PcrSelection.encode).length := by
  induction count generalizing pos with
  | zero => exact .pure fun hle => ⟨[], rfl, at_nil.mpr hle, rfl⟩
  | succ count ih =>
    unfold skipSelections
    split
    · exact .raise
    · rename_i hle
      have hstep : ReadsWithin buf (1 + (buf.length - (pos + 3))) (readByte buf (pos + 2) >>= fun size =>
          skipSelections buf count (pos + (3 + size.toNat))) fun pos' =>
          pos' ≤ buf.length → ∃ selections : List PcrSelection, selections.length = count + 1 ∧
            At buf pos (selections.flatMap PcrSelection.encode) ∧
            pos' = pos + (selections.flatMap PcrSelection.encode).length := by
        refine (readByte_reads (by omega)).bind fun size hsize => ih.mono (by omega) fun pos' hrest hpos' => ?_
        obtain ⟨selections, hcount, hat, rfl⟩ := hrest hpos'
        obtain ⟨s, hs, hlength⟩ := exists_selection hsize (le_trans (Nat.le_add_right _ _) hat.1)
        refine ⟨s :: selections, by rw [List.length_cons, hcount], ?_, ?_⟩
        · rw [List.flatMap_cons, at_append, hlength]
          exact ⟨hs, hat⟩
        · rw [List.flatMap_cons, List.length_append, hlength]
          omega
      exact hstep.mono (by omega) fun _ h => h

/-- **What the parser returns was laid out so.** -/
theorem TpmQuote.parse_reads (blob : Bytes) : ReadsWithin blob (1 + (1 + (2 + (2 + (1 + (blob.length + 2))))))
    (TpmQuote.parse blob) fun q => ∃ (a : TpmsAttest) (rest : Bytes), blob = a.encode ++ rest ∧ q = a.quote blob := by
  unfold TpmQuote.parse
  split
  · exact .raise
  rename_i hlong
  refine (readSlice_reads (by omega) (by omega)).bind fun magic hmagic => readU16_reads.bind fun type htype => ?_
  obtain ⟨attestType, pos⟩ := type
  obtain ⟨htype, hat_type, hpos⟩ := htype
  dsimp only at htype hat_type hpos ⊢
  refine read2b_reads.bind fun signer hsigner => ?_
  obtain ⟨signer, pos₁⟩ := signer
  obtain ⟨hsigner, hat_signer, hpos₁⟩ := hsigner
  dsimp only at hsigner hat_signer hpos₁ ⊢
  refine read2b_reads.bind fun extra hextra => ?_
  obtain ⟨extra, pos₂⟩ := extra
  obtain ⟨hextra, hat_extra, hpos₂⟩ := hextra
  dsimp only at hextra hat_extra hpos₂ ⊢
  split
  · exact .raise
  rename_i hcount
  have hskip : clockInfoLen + firmwareVersionLen = 25 := rfl
  rw [hskip] at hcount ⊢
  refine (readSlice_reads (by omega) (by omega)).bind fun count hcount' => ?_
  refine ReadsWithin.bind ((skipSelections_reads (ofBig count)).mono (Nat.sub_le _ _) fun _ h => h) fun pos₃ hselections => ?_
  refine ReadsWithin.bind (m := 0) read2b_reads fun digest hdigest => .pure ?_
  obtain ⟨hdigest, hat_digest, _⟩ := hdigest
  have hpos₃ : pos₃ ≤ blob.length := le_trans (Nat.le_add_right _ _) hat_digest.1
  obtain ⟨selections, hlength, hat_selections, rfl⟩ := hselections hpos₃
  have hmagic_lt : ofBig magic < 256 ^ 4 := by
    rw [hmagic]
    exact @ofBig_slice_lt blob 0 4 (by omega)
  have hcount_lt : ofBig count < 256 ^ 4 := hcount' ▸ ofBig_slice_lt (by omega)
  obtain ⟨clock, _, hat_clock, hclock_length⟩ := @exists_at_slice blob pos₂ (pos₂ + 25) (by omega) (by omega)
  have hclock : clock.length = 25 := Nat.add_left_cancel hclock_length
  have hat_magic : At blob 0 (toBig 4 (ofBig magic)) := (at_toBig hmagic_lt).mpr ⟨by omega, by rw [hmagic]⟩
  have hat_count : At blob (pos₂ + 25) (toBig 4 (ofBig count)) :=
    (at_toBig hcount_lt).mpr ⟨by omega, by rw [hcount']⟩
  let a : TpmsAttest :=
    { magic := ofBig magic, attestType, qualifiedSigner := signer, extraData := extra
      clockAndFirmware := clock, pcrSelections := selections, pcrDigest := digest.1
      magic_lt := hmagic_lt, attestType_lt := htype, qualifiedSigner_lt := hsigner, extraData_lt := hextra
      clockAndFirmware_length := hclock, pcrSelections_lt := hlength ▸ hcount_lt, pcrDigest_lt := hdigest }
  have hat : At blob 0 a.encode := by
    subst hpos hpos₁ hpos₂
    simp only [TpmsAttest.encode, at_append, length_toBig, hclock, hlength, a, Nat.zero_add]
    exact ⟨hat_magic, hat_type, hat_signer, hat_extra, hat_clock, hat_count, hat_selections, hat_digest⟩
  obtain ⟨rest, hrest⟩ := at_zero.mp hat
  exact ⟨a, rest, hrest, rfl⟩

/-! ## What is laid out is read -/

theorem readSlice_ok {j : Nat} {b : Bytes} (h : At buf pos b) (hj : j = pos + b.length) :
    (readSlice buf pos j).result = .ok b := by
  rw [readSlice, Traced.step_result, h.slice_eq hj]

theorem readU16_ok {n : Nat} (hn : n < 256 ^ 2) (h : At buf pos (toBig 2 n)) :
    (readU16 buf pos).result = .ok (n, pos + 2) := by
  have hle := h.1
  rw [length_toBig] at hle
  rw [readU16, if_neg (by omega), Traced.bind_result, readSlice_ok h (by rw [length_toBig]), ok_bind, ofBig_toBig hn]
  rfl

theorem read2b_ok {b : Bytes} (hb : b.length < 256 ^ 2) (h : At buf pos (sized b)) :
    (read2b buf pos).result = .ok (b, pos + (sized b).length) := by
  obtain ⟨hsize, hfield⟩ := at_append.mp h
  rw [length_toBig] at hfield
  have hle := hfield.1
  rw [read2b, Traced.bind_result, readU16_ok hb hsize, ok_bind]
  dsimp only
  rw [if_neg (by omega), Traced.bind_result, readSlice_ok hfield rfl, ok_bind, length_sized, Nat.add_assoc]
  rfl

theorem skipSelections_ok {selections : List PcrSelection} (h : At buf pos (selections.flatMap PcrSelection.encode)) :
    (skipSelections buf selections.length pos).result =
      .ok (pos + (selections.flatMap PcrSelection.encode).length) := by
  induction selections generalizing pos with
  | nil => rfl
  | cons s selections ih =>
    rw [List.flatMap_cons] at h ⊢
    obtain ⟨hs, hrest⟩ := at_append.mp h
    rw [PcrSelection.encode, at_append, at_append, length_toBig, length_toBig, toBig_one, at_singleton] at hs
    obtain ⟨_, hsize, hselect⟩ := hs
    have hle := hselect.1
    have hsize' : (UInt8.ofNat s.select.length).toNat = s.select.length := by
      have hlt := s.select_lt
      rw [UInt8.toNat_ofNat']
      omega
    rw [List.length_cons, skipSelections, if_neg (by omega), Traced.bind_result, readByte, Traced.step_result, hsize]
    simp only [ok_bind, hsize']
    rw [PcrSelection.length_encode] at hrest
    rw [ih hrest, List.length_append, PcrSelection.length_encode, Nat.add_assoc pos]

/-- **A layout is read**, whatever follows it. -/
theorem TpmQuote.parse_encode (a : TpmsAttest) (rest : Bytes) :
    (TpmQuote.parse (a.encode ++ rest)).result = .ok (a.quote (a.encode ++ rest)) := by
  have hat : At (a.encode ++ rest) 0 a.encode := at_zero.mpr ⟨rest, rfl⟩
  generalize a.encode ++ rest = blob at hat ⊢
  have hlong : ¬ blob.length < 6 := by
    have := hat.1
    simp only [TpmsAttest.encode, List.length_append, length_toBig] at this
    omega
  simp only [TpmsAttest.encode, at_append, length_toBig, Nat.zero_add, a.clockAndFirmware_length] at hat
  obtain ⟨hmagic, htype, hsigner, hextra, _, hcount, hselections, hdigest⟩ := hat
  have hle := hcount.1
  rw [length_toBig] at hle
  have hskip : clockInfoLen + firmwareVersionLen = 25 := rfl
  rw [TpmQuote.parse, if_neg hlong, Traced.bind_result, readSlice_ok hmagic (by rw [length_toBig]), ok_bind, Traced.bind_result,
    readU16_ok a.attestType_lt htype, ok_bind]
  dsimp only
  rw [Traced.bind_result, read2b_ok a.qualifiedSigner_lt hsigner, ok_bind]
  dsimp only
  rw [Traced.bind_result, read2b_ok a.extraData_lt hextra, ok_bind]
  dsimp only
  rw [hskip, if_neg (by omega), Traced.bind_result, readSlice_ok hcount (by rw [length_toBig]), ok_bind,
    Traced.bind_result, ofBig_toBig a.pcrSelections_lt, skipSelections_ok hselections, ok_bind, Traced.bind_result,
    read2b_ok a.pcrDigest_lt hdigest, ok_bind, ofBig_toBig a.magic_lt]
  rfl

end

/-! ## Layouts are prefix-free -/

theorem toBig_append_inj {w m n : Nat} {b c : Bytes} (hm : m < 256 ^ w) (hn : n < 256 ^ w)
    (h : toBig w m ++ b = toBig w n ++ c) : m = n ∧ b = c := by
  obtain ⟨hfield, hrest⟩ := List.append_inj h (by rw [length_toBig, length_toBig])
  exact ⟨by rw [← ofBig_toBig hm, hfield, ofBig_toBig hn], hrest⟩

theorem sized_append_inj {x y b c : Bytes} (hx : x.length < 256 ^ 2) (hy : y.length < 256 ^ 2)
    (h : sized x ++ b = sized y ++ c) : x = y ∧ b = c := by
  rw [sized, sized, List.append_assoc, List.append_assoc] at h
  obtain ⟨hlength, h⟩ := toBig_append_inj hx hy h
  exact List.append_inj h hlength

theorem selections_append_inj {l m : List PcrSelection} (hlength : l.length = m.length) {b c : Bytes}
    (h : l.flatMap PcrSelection.encode ++ b = m.flatMap PcrSelection.encode ++ c) : l = m ∧ b = c := by
  induction l generalizing m with
  | nil =>
    obtain rfl := List.length_eq_zero_iff.mp hlength.symm
    exact ⟨rfl, h⟩
  | cons s l ih =>
    cases m with
    | nil => cases hlength
    | cons t m =>
      obtain ⟨alg, select, halg, hselect⟩ := s
      obtain ⟨alg', select', halg', hselect'⟩ := t
      simp only [List.flatMap_cons, PcrSelection.encode, List.append_assoc] at h
      obtain ⟨rfl, hsized⟩ := toBig_append_inj halg halg' h
      obtain ⟨hsize, hselected⟩ := toBig_append_inj hselect hselect' hsized
      obtain ⟨rfl, hothers⟩ := List.append_inj hselected hsize
      obtain ⟨rfl, hrest⟩ := ih (Nat.succ.inj hlength) hothers
      exact ⟨rfl, hrest⟩

/-- **No layout goes on where another ends.** -/
theorem TpmsAttest.encode_append_inj {a a' : TpmsAttest} {b c : Bytes} (h : a.encode ++ b = a'.encode ++ c) : b = c := by
  simp only [encode, List.append_assoc] at h
  obtain ⟨_, h⟩ := toBig_append_inj a.magic_lt a'.magic_lt h
  obtain ⟨_, h⟩ := toBig_append_inj a.attestType_lt a'.attestType_lt h
  obtain ⟨_, h⟩ := sized_append_inj a.qualifiedSigner_lt a'.qualifiedSigner_lt h
  obtain ⟨_, h⟩ := sized_append_inj a.extraData_lt a'.extraData_lt h
  obtain ⟨_, h⟩ := List.append_inj h (a.clockAndFirmware_length.trans a'.clockAndFirmware_length.symm)
  obtain ⟨hcount, h⟩ := toBig_append_inj a.pcrSelections_lt a'.pcrSelections_lt h
  obtain ⟨_, h⟩ := selections_append_inj hcount h
  exact (sized_append_inj a.pcrDigest_lt a'.pcrDigest_lt h).2

/-- **The parser is total and faithful.** It raises `AttestationFailed` or returns, and returns exactly for a blob that
starts with a layout, with the fields of that layout. It reads within the blob, and no more often than the blob is long,
but for the nine reads that are no selection's, whatever count the blob declares. A layout cut short is refused. -/
theorem tpmQuote_parse (blob : Bytes) :
    (∀ e, (TpmQuote.parse blob).result = .error e → e.isClass .attestationFailed) ∧
    (∀ q, (TpmQuote.parse blob).result = .ok q ↔
      ∃ (a : TpmsAttest) (rest : Bytes), blob = a.encode ++ rest ∧ q = a.quote blob) ∧
    (∀ span, .started span ∈ (TpmQuote.parse blob).trace → span.start ≤ span.stop ∧ span.stop ≤ blob.length) ∧
    (TpmQuote.parse blob).trace.length ≤ 2 * (blob.length + 9) ∧
    ∀ (a : TpmsAttest) (cut : Bytes), a.encode = blob ++ cut → cut ≠ [] →
      ∃ e, (TpmQuote.parse blob).result = .error e ∧ e.isClass .attestationFailed := by
  have hreads := TpmQuote.parse_reads blob
  have hparsed : ∀ q, (TpmQuote.parse blob).result = .ok q ↔
      ∃ (a : TpmsAttest) (rest : Bytes), blob = a.encode ++ rest ∧ q = a.quote blob := by
    intro q
    constructor
    · exact hreads.spec.of_ok
    · intro h
      obtain ⟨a, rest, rfl, rfl⟩ := h
      exact TpmQuote.parse_encode a rest
  refine ⟨fun e => hreads.spec.of_error, hparsed, hreads.within, le_trans hreads.bound (by omega), fun a cut hcut hne => ?_⟩
  cases hresult : (TpmQuote.parse blob).result with
  | error e => exact ⟨e, rfl, hreads.spec.of_error hresult⟩
  | ok q =>
    obtain ⟨a', rest, hblob, _⟩ := (hparsed q).mp hresult
    have hwhole : a.encode ++ [] = a'.encode ++ (rest ++ cut) := by
      rw [List.append_nil, hcut, ← List.append_assoc, ← hblob]
    have hempty := TpmsAttest.encode_append_inj hwhole
    exact absurd (List.append_eq_nil_iff.mp hempty.symm).2 hne

end Ca2a
