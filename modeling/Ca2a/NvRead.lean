/-
`TpmProvider._read_nv`: an NV index read in chunks.

The loop asks for at most a chunk at a time and goes on from what it has. It
counts what arrives, not what was asked for, so it ends when the replies add
up to the size or one of them raises. A device that answers with nothing is
asked again, for the same octets, without end.
-/
import Ca2a.Errors

namespace Ca2a

open Py

/-- What the device answers to one reading of an index: its size, the properties it reports (each with
its value), and the replies to `nv_read`, by the number of the call. -/
structure NvDevice where
  dataSize : Result Nat
  tpmProperties : Result (List (Nat × Nat))
  nvRead : Nat → Result Bytes

/-- One call of `nv_read`. -/
structure NvRequest where
  want : Nat
  offset : Nat
  deriving DecidableEq, Repr

/-- `_NV_READ_CHUNK_BYTES` -/
def nvReadChunkBytes : Nat := 512

/-- `_TPM2_PT_NV_BUFFER_MAX` -/
def tpm2PtNvBufferMax : Nat := 0x0000012B

/-- The chunk `_read_nv` reads by: the device's, where it reports a smaller one. -/
def nvChunk (tpmProperties : Result (List (Nat × Nat))) : Nat :=
  match tpmProperties with
  | .error _ => nvReadChunkBytes
  | .ok properties =>
    match properties.find? fun prop => prop.1 = tpm2PtNvBufferMax with
    | some prop => min nvReadChunkBytes prop.2
    | none => nvReadChunkBytes

/-- The loop of `_read_nv`, after `call` calls that brought `out`: the calls it goes on to make and
what it returns, or `none` while it is still running when the fuel is used up. -/
def nvReadLoop (nvRead : Nat → Result Bytes) (total chunk : Nat) :
    (fuel call : Nat) → (out : Bytes) → Option (List NvRequest × Option Bytes)
  | 0, _, _ => none
  | fuel + 1, call, out =>
    if out.length < total then
      let request := { want := min chunk (total - out.length), offset := out.length }
      match nvRead call with
      | .error _ => some ([request], none)
      | .ok reply =>
        (nvReadLoop nvRead total chunk fuel (call + 1) (out ++ reply)).map fun run => (request :: run.1, run.2)
    else some ([], some out)

/-- `_read_nv` -/
def readNv (device : NvDevice) (fuel : Nat) : Option (List NvRequest × Option Bytes) :=
  match device.dataSize with
  | .error _ => some ([], none)
  | .ok total => nvReadLoop device.nvRead total (nvChunk device.tpmProperties) fuel 0 []

/-- What `n` replies from a call on bring. -/
def received (nvRead : Nat → Result Bytes) (call : Nat) : Nat → Bytes
  | 0 => []
  | n + 1 => (nvRead call).toOption.getD [] ++ received nvRead (call + 1) n

/-! ## A run of the loop -/

/-- The call the loop makes when it has `out`. -/
def nvRequest (total chunk : Nat) (out : Bytes) : NvRequest :=
  { want := min chunk (total - out.length), offset := out.length }

/-- A run of the loop that ends: the calls it makes and what it returns. -/
inductive NvRun (nvRead : Nat → Result Bytes) (total chunk : Nat) :
    (call : Nat) → (out : Bytes) → List NvRequest → Option Bytes → Prop
  | done {call : Nat} {out : Bytes} : total ≤ out.length → NvRun nvRead total chunk call out [] (some out)
  | raised {call : Nat} {out : Bytes} {e : Exc} : out.length < total → nvRead call = .error e →
      NvRun nvRead total chunk call out [nvRequest total chunk out] none
  | more {call : Nat} {out reply : Bytes} {requests : List NvRequest} {result : Option Bytes} : out.length < total →
      nvRead call = .ok reply → NvRun nvRead total chunk (call + 1) (out ++ reply) requests result →
      NvRun nvRead total chunk call out (nvRequest total chunk out :: requests) result

section
variable {nvRead : Nat → Result Bytes} {total chunk : Nat}

theorem NvRun.of_loop {fuel call : Nat} {out : Bytes} {requests : List NvRequest} {result : Option Bytes}
    (h : nvReadLoop nvRead total chunk fuel call out = some (requests, result)) :
    NvRun nvRead total chunk call out requests result := by
  induction fuel generalizing call out requests with
  | zero => cases h
  | succ fuel ih =>
    rw [nvReadLoop] at h
    split at h
    · rename_i hlt
      cases hreply : nvRead call with
      | error e =>
        simp only [hreply, Option.some.injEq, Prod.mk.injEq] at h
        obtain ⟨rfl, rfl⟩ := h
        exact .raised hlt hreply
      | ok reply =>
        simp only [hreply, Option.map_eq_some_iff, Prod.mk.injEq, Prod.exists] at h
        obtain ⟨later, _, hrun, rfl, rfl⟩ := h
        exact .more hlt hreply (ih hrun)
    · rename_i hdone
      cases h
      exact .done (not_lt.mp hdone)

theorem NvRun.to_loop {call : Nat} {out : Bytes} {requests : List NvRequest} {result : Option Bytes}
    (h : NvRun nvRead total chunk call out requests result) :
    ∃ fuel, nvReadLoop nvRead total chunk fuel call out = some (requests, result) := by
  induction h with
  | done hdone => exact ⟨1, by rw [nvReadLoop, if_neg (not_lt.mpr hdone)]⟩
  | raised hlt hreply => exact ⟨1, by simp only [nvReadLoop, if_pos hlt, hreply]; rfl⟩
  | more hlt hreply _ ih =>
    obtain ⟨fuel, hfuel⟩ := ih
    exact ⟨fuel + 1, by simp only [nvReadLoop, if_pos hlt, hreply, hfuel]; rfl⟩

/-- A run returns nothing where the last reply raised. -/
theorem NvRun.raised_of_none {call : Nat} {out : Bytes} {requests : List NvRequest}
    (h : NvRun nvRead total chunk call out requests none) : ∃ n e, requests.length = n + 1 ∧ nvRead (call + n) = .error e := by
  generalize hresult : (none : Option Bytes) = result at h
  induction h with
  | done => cases hresult
  | @raised call out e _ hreply => exact ⟨0, e, rfl, hreply⟩
  | more _ _ _ ih =>
    obtain ⟨n, e, hlength, hraised⟩ := ih hresult
    exact ⟨n + 1, e, by rw [List.length_cons, hlength], by rwa [Nat.add_comm n, ← Nat.add_assoc]⟩

/-- Every call asks for what is missing behind what has arrived. -/
theorem NvRun.asked {call : Nat} {out : Bytes} {requests : List NvRequest} {result : Option Bytes}
    (h : NvRun nvRead total chunk call out requests result) {i : Nat} {request : NvRequest}
    (hi : requests[i]? = some request) : request = nvRequest total chunk (out ++ received nvRead call i) := by
  induction h generalizing i with
  | done => simp at hi
  | raised =>
    cases i with
    | zero => simpa [received, eq_comm] using hi
    | succ i => simp at hi
  | more _ hreply _ ih =>
    cases i with
    | zero => simpa [received, eq_comm] using hi
    | succ i =>
      rw [ih (by simpa using hi), received, hreply, List.append_assoc]
      rfl

/-- What a run returns is what it had and what every reply brought, and it is enough. -/
theorem NvRun.returned {call : Nat} {out data : Bytes} {requests : List NvRequest}
    (h : NvRun nvRead total chunk call out requests (some data)) :
    (∀ i < requests.length, ∃ reply, nvRead (call + i) = .ok reply) ∧
      data = out ++ received nvRead call requests.length ∧ total ≤ data.length := by
  generalize hresult : some data = result at h
  induction h with
  | done hdone =>
    cases hresult
    exact ⟨by simp, by simp [received], hdone⟩
  | raised => cases hresult
  | @more call out reply requests result _ hreply _ ih =>
    obtain ⟨hreplies, hdata, henough⟩ := ih hresult
    refine ⟨?_, ?_, henough⟩
    · intro i hi
      cases i with
      | zero => exact ⟨reply, hreply⟩
      | succ i =>
        have := hreplies i (by simpa using hi)
        rwa [Nat.add_assoc, Nat.add_comm 1] at this
    · rw [hdata, List.length_cons, received, hreply, List.append_assoc]
      rfl

/-- Replies of the requested length bring the declared size, read at consecutive offsets. -/
theorem NvRun.requested {call : Nat} {out data : Bytes} {requests : List NvRequest}
    (h : NvRun nvRead total chunk call out requests (some data)) (hout : out.length ≤ total)
    (hlength : ∀ i request reply, requests[i]? = some request → nvRead (call + i) = .ok reply →
      reply.length = request.want) :
    data.length = total ∧ ∀ i request, requests[i]? = some request →
      request.offset = out.length + ((requests.take i).map NvRequest.want).sum := by
  generalize hresult : some data = result at h
  induction h with
  | done hdone =>
    cases hresult
    exact ⟨le_antisymm hout hdone, by simp⟩
  | raised => cases hresult
  | @more call out reply requests result hlt hreply _ ih =>
    have hfirst : reply.length = min chunk (total - out.length) := hlength 0 _ reply rfl hreply
    have hreached : (out ++ reply).length ≤ total := by
      rw [List.length_append, hfirst]
      omega
    obtain ⟨hsize, hoffsets⟩ := ih hreached (fun i request later hi hlater =>
      hlength (i + 1) request later hi (by rwa [Nat.add_comm i, ← Nat.add_assoc])) hresult
    refine ⟨hsize, ?_⟩
    intro i request hi
    cases i with
    | zero =>
      cases hi
      rfl
    | succ i =>
      rw [hoffsets i request hi, List.length_append, hfirst, List.take_succ_cons, List.map_cons, List.sum_cons, Nat.add_assoc]
      rfl

/-- A run ends where a reply raises, or where the replies add up to the size. -/
theorem NvRun.exists_of {n call : Nat} {out : Bytes}
    (h : (∃ e, nvRead (call + n) = .error e) ∨ total ≤ out.length + (received nvRead call n).length) :
    ∃ requests result, NvRun nvRead total chunk call out requests result := by
  induction n generalizing call out with
  | zero =>
    by_cases hlt : out.length < total
    · rcases h with h | h
      · obtain ⟨e, he⟩ := h
        exact ⟨_, _, .raised hlt he⟩
      · simp only [received, List.length_nil] at h
        omega
    · exact ⟨_, _, .done (not_lt.mp hlt)⟩
  | succ n ih =>
    by_cases hlt : out.length < total
    · cases hreply : nvRead call with
      | error e => exact ⟨_, _, .raised hlt hreply⟩
      | ok reply =>
        have hlater : (∃ e, nvRead (call + 1 + n) = .error e) ∨
            total ≤ (out ++ reply).length + (received nvRead (call + 1) n).length := by
          rw [Nat.add_assoc, Nat.add_comm 1]
          refine h.imp_right ?_
          intro hsum
          rw [received, hreply, List.length_append] at hsum
          rw [List.length_append, Nat.add_assoc]
          exact hsum
        obtain ⟨requests, result, hrun⟩ := ih hlater
        exact ⟨_, _, .more hlt hreply hrun⟩
    · exact ⟨_, _, .done (not_lt.mp hlt)⟩

end

/-! ## When a reading ends -/

/-- The index is not readable, a reply raises, or finitely many replies add up to the size. -/
def NvDevice.Delivers (device : NvDevice) : Prop :=
  (∃ e, device.dataSize = .error e) ∨
    ∃ total, device.dataSize = .ok total ∧
      ((∃ n e, device.nvRead n = .error e) ∨ ∃ n, total ≤ (received device.nvRead 0 n).length)

/-- What a reading that ended has done: calls that ask by a chunk at most for what is missing behind what has arrived. It
returns nothing where the index has no size or its last call raised, and else what the replies brought; where each reply has
the requested length this is the declared size, read at consecutive offsets. -/
structure NvDevice.Reading (device : NvDevice) (requests : List NvRequest) (result : Option Bytes) : Prop where
  asked : ∀ i request, requests[i]? = some request → ∃ total, device.dataSize = .ok total ∧
    request = nvRequest total (nvChunk device.tpmProperties) (received device.nvRead 0 i)
  nothing : result = none → (∃ e, device.dataSize = .error e) ∨
    ∃ n e, requests.length = n + 1 ∧ device.nvRead n = .error e
  returned : ∀ data, result = some data → (∃ total, device.dataSize = .ok total ∧ total ≤ data.length) ∧
    (∀ i < requests.length, ∃ reply, device.nvRead i = .ok reply) ∧ data = received device.nvRead 0 requests.length
  requested : ∀ total, device.dataSize = .ok total →
    (∀ i request, requests[i]? = some request → ∃ reply, device.nvRead i = .ok reply ∧ reply.length = request.want) →
    (∃ data, result = some data ∧ data.length = total) ∧
      ∀ i request, requests[i]? = some request → request.offset = ((requests.take i).map NvRequest.want).sum

/-- A reading ends. -/
def NvDevice.ReadInFull (device : NvDevice) : Prop :=
  ∃ fuel requests result, readNv device fuel = some (requests, result) ∧ device.Reading requests result

theorem NvRun.reading {device : NvDevice} {total : Nat} (hsize : device.dataSize = .ok total) {requests : List NvRequest}
    {result : Option Bytes} (h : NvRun device.nvRead total (nvChunk device.tpmProperties) 0 [] requests result) :
    device.Reading requests result where
  asked := fun i request hi => ⟨total, hsize, h.asked hi⟩
  nothing := by
    intro hnone
    subst hnone
    obtain ⟨n, e, hlength, hraised⟩ := h.raised_of_none
    exact .inr ⟨n, e, hlength, by rwa [Nat.zero_add] at hraised⟩
  returned := by
    intro data hdata
    subst hdata
    obtain ⟨hreplies, hreceived, henough⟩ := h.returned
    exact ⟨⟨total, hsize, henough⟩, fun i hi => by simpa using hreplies i hi, hreceived⟩
  requested := by
    intro total' hsize' hlength
    obtain rfl := Except.ok.inj (hsize.symm.trans hsize')
    cases result with
    | none =>
      obtain ⟨n, e, hcalls, hraised⟩ := h.raised_of_none
      obtain ⟨reply, hreply, _⟩ := hlength n _ (List.getElem?_eq_getElem (by omega))
      rw [Nat.zero_add, hreply] at hraised
      cases hraised
    | some data =>
      obtain ⟨hsized, hoffsets⟩ := h.requested (Nat.zero_le _) fun i request reply hi hreply => by
        obtain ⟨reply', hreply', hwant⟩ := hlength i request hi
        rw [Nat.zero_add, hreply'] at hreply
        rwa [← Except.ok.inj hreply]
      exact ⟨⟨data, rfl, hsized⟩, fun i request hi => (hoffsets i request hi).trans (Nat.zero_add _)⟩

/-- An index without a size is not asked for anything. -/
theorem NvDevice.reading_unreadable {device : NvDevice} {e : Exc} (hsize : device.dataSize = .error e) :
    device.Reading [] none where
  asked := fun i request hi => by simp at hi
  nothing := fun _ => .inl ⟨e, hsize⟩
  returned := fun data hdata => by cases hdata
  requested := fun total hsize' => by cases hsize.symm.trans hsize'

theorem NvDevice.ReadInFull.delivers {device : NvDevice} (h : device.ReadInFull) : device.Delivers := by
  obtain ⟨_, requests, result, _, hreading⟩ := h
  cases result with
  | none =>
    rcases hreading.nothing rfl with hsize | hraised
    · exact .inl hsize
    obtain ⟨n, e, hcalls, hraised⟩ := hraised
    have hlt : n < requests.length := by omega
    obtain ⟨total, hsize, _⟩ := hreading.asked n _ (List.getElem?_eq_getElem hlt)
    exact .inr ⟨total, hsize, .inl ⟨n, e, hraised⟩⟩
  | some data =>
    obtain ⟨⟨total, hsize, henough⟩, _, hreceived⟩ := hreading.returned data rfl
    exact .inr ⟨total, hsize, .inr ⟨requests.length, hreceived ▸ henough⟩⟩

theorem NvDevice.Delivers.readInFull {device : NvDevice} (h : device.Delivers) : device.ReadInFull := by
  rcases h with h | h
  · obtain ⟨e, hsize⟩ := h
    exact ⟨0, [], none, by simp only [readNv, hsize], NvDevice.reading_unreadable hsize⟩
  · obtain ⟨total, hsize, hends⟩ := h
    have hends' : ∃ n, (∃ e, device.nvRead (0 + n) = .error e) ∨
        total ≤ ([] : Bytes).length + (received device.nvRead 0 n).length := by
      rcases hends with hraises | henough
      · obtain ⟨n, e, he⟩ := hraises
        exact ⟨n, .inl ⟨e, by rwa [Nat.zero_add]⟩⟩
      · obtain ⟨n, hn⟩ := henough
        exact ⟨n, .inr (by simpa using hn)⟩
    obtain ⟨n, hn⟩ := hends'
    have hrun : ∃ requests result, NvRun device.nvRead total (nvChunk device.tpmProperties) 0 [] requests result :=
      NvRun.exists_of hn
    obtain ⟨requests, result, hrun⟩ := hrun
    obtain ⟨fuel, hfuel⟩ := hrun.to_loop
    exact ⟨fuel, requests, result, by simp only [readNv, hsize, hfuel], hrun.reading hsize⟩

/-- **A reading ends where the device delivers**, and whatever ends is a reading. -/
theorem readInFull_iff (device : NvDevice) :
    (device.ReadInFull ↔ device.Delivers) ∧
      ∀ fuel requests result, readNv device fuel = some (requests, result) → device.Reading requests result := by
  refine ⟨⟨NvDevice.ReadInFull.delivers, NvDevice.Delivers.readInFull⟩, fun fuel requests result hread => ?_⟩
  cases hsize : device.dataSize with
  | error e =>
    simp only [readNv, hsize, Option.some.injEq, Prod.mk.injEq] at hread
    obtain ⟨rfl, rfl⟩ := hread
    exact NvDevice.reading_unreadable hsize
  | ok total =>
    simp only [readNv, hsize] at hread
    exact (NvRun.of_loop hread).reading hsize

/-- A device that reports no room for a reply, and answers with nothing. -/
def NvDevice.silent : NvDevice :=
  { dataSize := .ok 1, tpmProperties := .ok [(tpm2PtNvBufferMax, 0)], nvRead := fun _ => .ok [] }

/-- The loop asks it again and again. -/
theorem silent_not_readInFull : ¬ NvDevice.silent.ReadInFull := by
  intro h
  have hreceived : ∀ n call, received NvDevice.silent.nvRead call n = [] := by
    intro n
    induction n with
    | zero => exact fun _ => rfl
    | succ n ih => exact fun call => ih (call + 1)
  rcases h.delivers with h | h
  · obtain ⟨e, he⟩ := h
    cases he
  · obtain ⟨total, hsize, hends⟩ := h
    cases hsize
    rcases hends with h | h
    · obtain ⟨n, e, he⟩ := h
      cases he
    · obtain ⟨n, hn⟩ := h
      rw [hreceived] at hn
      exact absurd hn (by decide)

end Ca2a
