/-
`ca2a_runtime.tee.tsm`: reports read through configfs, by any number of
collectors at once.

A collector is a program of file operations, each of which may fail, and the
others run between any two of them. What keeps them apart is that `mkdir`
refuses a name that is taken: from then on the entry is the collector's own,
so the report it reads is over what it wrote. The random part of the name
only makes a refusal rare. Other software of the host is taken to leave the
collectors' entries alone.
-/
import Ca2a.Errors
import Ca2a.Py.Prog
import Ca2a.ReportData

namespace Ca2a

open Py

/-! ## The file operations -/

/-- An `OSError`: the name of its class and its text. -/
structure OsError where
  name : Str
  text : Str

/-- What reading a text may raise: an `OSError`, or a `UnicodeDecodeError` with its text. -/
inductive TextError
  | os (exc : OsError)
  | undecodable (text : Str)

/-- What a collector asks of configfs. -/
inductive TsmCall
  | mkdir (entry : Str)
  | writeInblob (entry : Str) (data : Bytes)
  | readProvider (entry : Str)
  | readOutblob (entry : Str)
  | readAuxblob (entry : Str)
  | rmdir (entry : Str)

/-- The entry that is worked on. -/
def TsmCall.entry : TsmCall → Str
  | .mkdir entry | .writeInblob entry _ | .readProvider entry | .readOutblob entry | .readAuxblob entry | .rmdir entry => entry

/-- What it gets. -/
@[reducible] def TsmReply : TsmCall → Type
  | .mkdir _ => Except OsError Unit
  | .writeInblob _ _ => Except OsError Unit
  | .readProvider _ => Except TextError Str
  | .readOutblob _ => Except OsError Bytes
  | .readAuxblob _ => Except OsError Bytes
  | .rmdir _ => Except OsError Unit

/-- What a collector raises: an `AttestationUnsupported`, or what the rest of the runtime may raise. -/
inductive CollectError
  | unsupported (message : Str) (detail : Option Str)
  | raised (e : Exc)

/-- A function of the runtime that works on files of configfs. -/
abbrev Collector (α : Type) := Prog TsmCall TsmReply (Except CollectError α)

/-- `raise AttestationFailed(message, detail=detail)` -/
def collectFailed {α : Type} (message : Str) (detail : Str) : Except CollectError α :=
  .error (.raised (.app { cls := .attestationFailed, message, detail := some detail }))

/-! ## `collect_report` -/

/-- `TSM_REPORT_DIR` -/
def tsmReportDir : Str := lit "/sys/kernel/config/tsm/report"

/-- `PROVIDER_SEV_GUEST` -/
def providerSevGuest : Str := lit "sev_guest"

/-- `PROVIDER_TDX_GUEST` -/
def providerTdxGuest : Str := lit "tdx_guest"

/-- The name of the entry, of the process and a random token. -/
def tsmEntry (pid : Nat) (token : Bytes) : Str :=
  tsmReportDir ++ lit "/ca2a-" ++ decimal pid ++ lit "-" ++ hex token

section
variable [Interp]

/-- `str.isspace`, for one code point. -/
def isSpace (c : CodePoint) : Bool :=
  if c.val < 128 then isAsciiSpace c || (0x1C ≤ c.val && c.val ≤ 0x1F) else Interp.space c

/-- `str.strip` -/
def strip (s : Str) : Str := (s.dropWhile isSpace).rdropWhile isSpace

/-- The entry of `collect_report`, from the write on and before the clean-up. -/
def readReport (entry : Str) (reportData : Bytes) (expectProvider : Str) : Collector (Bytes × Option Bytes) :=
  .call (.writeInblob entry reportData) fun written =>
    match written with
    | .error exc => .ret (unnamed exc)
    | .ok () =>
      .call (.readProvider entry) fun named =>
        match named with
        | .error (.os exc) => .ret (unnamed exc)
        | .error (.undecodable text) => .ret (.error (.raised (.builtin .unicodeDecodeError text)))
        | .ok text =>
          let provider := strip text
          if provider ≠ expectProvider then
            .ret (collectFailed (lit "the configfs-TSM provider is not the expected platform")
              (lit "the kernel reports " ++ Py.repr provider ++ lit ", this collector expects " ++
                Py.repr expectProvider ++ lit "; the wrong provider was selected for this host"))
          else
            .call (.readOutblob entry) fun reported =>
              match reported with
              | .error exc =>
                .ret (collectFailed (lit "the configfs-TSM provider did not return a report")
                  (exc.name ++ lit ": " ++ exc.text))
              | .ok outblob =>
                if outblob = [] then
                  .ret (collectFailed (lit "the configfs-TSM provider returned an empty report")
                    (lit "provider=" ++ Py.repr provider ++ lit " produced no bytes in outblob"))
                else
                  .call (.readAuxblob entry) fun certified =>
                    match certified with
                    | .error _ => .ret (.ok (outblob, none))
                    | .ok auxblob => .ret (.ok (outblob, if auxblob = [] then none else some auxblob))
where
  unnamed (exc : OsError) : Except CollectError (Bytes × Option Bytes) :=
    collectFailed (lit "the configfs-TSM entry did not name its provider") (exc.name ++ lit ": " ++ exc.text)

/-- `collect_report` -/
def collectReport (reportData : Bytes) (expectProvider : Str) (pid : Nat) (token : Bytes) :
    Collector (Bytes × Option Bytes) :=
  if reportData.length > reportDataLen then
    .ret (collectFailed (lit "report data is larger than the field the platform reserves")
      (lit "got " ++ decimal reportData.length ++ lit " bytes, the limit is " ++ decimal reportDataLen))
  else
    let entry := tsmEntry pid token
    .call (.mkdir entry) fun made =>
      match made with
      | .error exc =>
        .ret (.error (.unsupported (lit "the kernel refused a configfs-TSM report entry")
          (some (lit "could not create " ++ entry ++ lit ": " ++ exc.text ++
            lit ". Creating an entry needs root and a registered TSM provider; a guest whose driver registered none " ++
            lit "is not a supported collection host."))))
      | .ok () => (readReport entry reportData expectProvider).andThen fun result =>
          -- the `finally`, whose own failure is suppressed
          .call (.rmdir entry) fun _ => .ret result

end

/-! ## configfs -/

/-- An entry: what was last written to `inblob`, and whether a collector made it. -/
structure TsmEntry where
  inblob : Option Bytes
  collectors : Bool

/-- The report directory, what the platform was asked to sign for a collector, and the entries one could not remove. -/
structure TsmFs where
  entries : Str → Option TsmEntry
  signed : List Bytes
  stuck : List Str

namespace TsmFs

/-- The directory with the entry changed. -/
def set (s : TsmFs) (entry : Str) (e : Option TsmEntry) : TsmFs :=
  { s with entries := Function.update s.entries entry e }

/-- The platform signs for a collector. -/
def sign (s : TsmFs) (data : Bytes) : TsmFs := { s with signed := s.signed ++ [data] }

@[simp] theorem set_entries_self (s : TsmFs) (entry : Str) (e : Option TsmEntry) : (s.set entry e).entries entry = e := by
  simp [set]

theorem set_entries_of_ne {entry other : Str} (h : other ≠ entry) (s : TsmFs) (e : Option TsmEntry) :
    (s.set entry e).entries other = s.entries other := by
  simp [set, Function.update_of_ne h]

@[simp] theorem set_signed (s : TsmFs) (entry : Str) (e : Option TsmEntry) : (s.set entry e).signed = s.signed := rfl

@[simp] theorem set_stuck (s : TsmFs) (entry : Str) (e : Option TsmEntry) : (s.set entry e).stuck = s.stuck := rfl

@[simp] theorem sign_entries (s : TsmFs) (data : Bytes) : (s.sign data).entries = s.entries := rfl

@[simp] theorem sign_signed (s : TsmFs) (data : Bytes) : (s.sign data).signed = s.signed ++ [data] := rfl

@[simp] theorem sign_stuck (s : TsmFs) (data : Bytes) : (s.sign data).stuck = s.stuck := rfl

end TsmFs

/-- The driver behind the directory: the text of `provider`, and the reports it may sign over given data. -/
structure TsmDriver where
  provider : Str
  Reports : (data report : Bytes) → Prop

/-- How configfs answers. A failed `mkdir` makes nothing, a failed write may have written anything, and a report that
could not be read may have been signed. -/
def TsmDriver.serves (driver : TsmDriver) (s : TsmFs) : (c : TsmCall) → TsmReply c → TsmFs → Prop
  | .mkdir entry, .ok (), s' => s.entries entry = none ∧ s' = s.set entry (some ⟨none, true⟩)
  | .mkdir _, .error _, s' => s' = s
  | .writeInblob entry data, .ok (), s' => ∃ e, s.entries entry = some e ∧ s' = s.set entry (some { e with inblob := some data })
  | .writeInblob entry _, .error _, s' =>
    s' = s ∨ ∃ e data, s.entries entry = some e ∧ s' = s.set entry (some { e with inblob := data })
  | .readProvider entry, .ok text, s' => s.entries entry ≠ none ∧ text = driver.provider ∧ s' = s
  | .readProvider _, .error _, s' => s' = s
  | .readOutblob entry, .ok report, s' => ∃ e data, s.entries entry = some e ∧ e.inblob = some data ∧
      driver.Reports data report ∧ s' = s.sign data
  | .readOutblob entry, .error _, s' => s' = s ∨ ∃ e data, s.entries entry = some e ∧ e.inblob = some data ∧ s' = s.sign data
  | .readAuxblob _, .ok _, s' => s' = s
  | .readAuxblob _, .error _, s' => s' = s
  | .rmdir entry, .ok (), s' => s.entries entry ≠ none ∧ s' = s.set entry none
  | .rmdir entry, .error _, s' => s' = { s with stuck := entry :: s.stuck }

/-- Other software of the host leaves the collectors' entries alone, and has its own. -/
def TsmFs.OthersChange (s s' : TsmFs) : Prop :=
  s'.signed = s.signed ∧ s'.stuck = s.stuck ∧
    ∀ entry e, e.collectors = true → (s'.entries entry = some e ↔ s.entries entry = some e)

/-- A host with the interface. -/
def TsmDriver.host (driver : TsmDriver) : Host TsmFs TsmCall TsmReply where
  serves := driver.serves
  other := TsmFs.OthersChange

/-! ## What a collector holds -/

/-- The entry of a collector: none, the one it made with what it wrote there, or one it could not remove. -/
inductive TsmHold
  | nothing
  | entry (name : Str) (inblob : Option Bytes)
  | abandoned (name : Str)

/-- The entry is a collector's, removed or not. -/
def TsmHold.names : TsmHold → Str → Prop
  | .nothing, _ => False
  | .entry name _, e => name = e
  | .abandoned name, e => name = e

/-- A collector: the report data it was called with, the provider it expects, and its entry. -/
structure TsmHeld where
  data : Bytes
  expect : Str
  hold : TsmHold

section
variable [Interp]

/-- The calls a collector may make: on its own entry, and for a report only over its own data and from the provider it
expects. -/
def TsmDriver.discipline (driver : TsmDriver) : Discipline TsmHeld TsmCall TsmReply where
  may o
    | .mkdir _ => o.hold = .nothing
    | .writeInblob entry data => (∃ b, o.hold = .entry entry b) ∧ data = o.data
    | .readProvider entry => ∃ b, o.hold = .entry entry b
    | .readOutblob entry => o.hold = .entry entry (some o.data) ∧ o.expect = strip driver.provider
    | .readAuxblob entry => ∃ b, o.hold = .entry entry b
    | .rmdir entry => ∃ b, o.hold = .entry entry b
  effect o
    | .mkdir entry, .ok (), o' => o' = { o with hold := .entry entry none }
    | .mkdir _, .error _, o' => o' = o
    | .writeInblob entry data, .ok (), o' => o' = { o with hold := .entry entry (some data) }
    | .writeInblob entry _, .error _, o' => ∃ b, o' = { o with hold := .entry entry b }
    | .readProvider _, .ok text, o' => text = driver.provider ∧ o' = o
    | .readProvider _, .error _, o' => o' = o
    | .readOutblob _, .ok report, o' => driver.Reports o.data report ∧ o' = o
    | .readOutblob _, .error _, o' => o' = o
    | .readAuxblob _, _, o' => o' = o
    | .rmdir _, .ok (), o' => o' = { o with hold := .nothing }
    | .rmdir entry, .error _, o' => o' = { o with hold := .abandoned entry }

/-- What a collector comes to: with a report over its data from the provider it expects, and no entry that it could have
removed. -/
structure Collected (driver : TsmDriver) (data : Bytes) (expect : Str)
    (result : Except CollectError (Bytes × Option Bytes)) (o : TsmHeld) : Prop where
  data_eq : o.data = data
  expect_eq : o.expect = expect
  removed : ∀ name b, o.hold ≠ .entry name b
  report : ∀ outblob auxblob, result = .ok (outblob, auxblob) → data.length ≤ reportDataLen ∧
    expect = strip driver.provider ∧ driver.Reports data outblob ∧ outblob ≠ [] ∧ auxblob ≠ some []

/-- Within the entry, everything that `Collected` says but the clean-up. -/
def Reported (driver : TsmDriver) (data : Bytes) (expect entry : Str)
    (result : Except CollectError (Bytes × Option Bytes)) (o : TsmHeld) : Prop :=
  (∃ b, o = ⟨data, expect, .entry entry b⟩) ∧
    ∀ outblob auxblob, result = .ok (outblob, auxblob) →
      expect = strip driver.provider ∧ driver.Reports data outblob ∧ outblob ≠ [] ∧ auxblob ≠ some []

theorem readReport_meets (driver : TsmDriver) (data : Bytes) (expect entry : Str) :
    (readReport entry data expect).Meets driver.discipline (Reported driver data expect entry)
      ⟨data, expect, .entry entry none⟩ := by
  have hraised : ∀ {message detail : Str} {b : Option Bytes}, Reported driver data expect entry
      (collectFailed message detail) ⟨data, expect, .entry entry b⟩ := by
    intro message detail b
    exact ⟨⟨b, rfl⟩, by simp [collectFailed]⟩
  refine ⟨⟨⟨none, rfl⟩, rfl⟩, fun written o hwritten => ?_⟩
  cases written with
  | error exc =>
    obtain ⟨b, rfl⟩ := hwritten
    exact hraised
  | ok u =>
    cases hwritten
    refine ⟨⟨_, rfl⟩, fun named o hnamed => ?_⟩
    cases named with
    | error exc =>
      cases hnamed
      cases exc with
      | os exc => exact hraised
      | undecodable text => exact ⟨⟨_, rfl⟩, by simp⟩
    | ok text =>
      obtain ⟨rfl, rfl⟩ := hnamed
      dsimp only
      split
      · exact hraised
      · rename_i hprovider
        rw [not_not] at hprovider
        refine ⟨⟨rfl, hprovider.symm⟩, fun reported o hreported => ?_⟩
        cases reported with
        | error exc =>
          cases hreported
          exact hraised
        | ok outblob =>
          obtain ⟨hreport, rfl⟩ := hreported
          dsimp only
          split
          · exact hraised
          · rename_i hne
            refine ⟨⟨_, rfl⟩, fun certified o hcertified => ?_⟩
            cases hcertified
            cases certified with
            | error exc => exact ⟨⟨_, rfl⟩, by simp_all⟩
            | ok auxblob =>
              refine ⟨⟨_, rfl⟩, ?_⟩
              intro out aux heq
              cases heq
              refine ⟨hprovider.symm, hreport, hne, ?_⟩
              split <;> simp_all

/-- **One collector**: it works on the entry it made, and leaves it removed unless that failed. -/
theorem collectReport_meets (driver : TsmDriver) (data : Bytes) (expect : Str) (pid : Nat) (token : Bytes) :
    (collectReport data expect pid token).Meets driver.discipline (Collected driver data expect)
      ⟨data, expect, .nothing⟩ := by
  unfold collectReport
  split
  · exact ⟨rfl, rfl, by simp, by simp [collectFailed]⟩
  · rename_i hlength
    refine ⟨rfl, fun made o hmade => ?_⟩
    cases made with
    | error exc =>
      cases hmade
      exact ⟨rfl, rfl, by simp, by simp⟩
    | ok u =>
      cases hmade
      refine ((readReport_meets driver data expect (tsmEntry pid token)).mono fun result o hreported => ?_).andThen
      obtain ⟨⟨b, rfl⟩, hreport⟩ := hreported
      refine ⟨⟨b, rfl⟩, fun removed o hremoved => ?_⟩
      have hfinal : ∀ outblob auxblob, result = .ok (outblob, auxblob) → data.length ≤ reportDataLen ∧
          expect = strip driver.provider ∧ driver.Reports data outblob ∧ outblob ≠ [] ∧ auxblob ≠ some [] :=
        fun outblob auxblob heq => ⟨not_lt.mp hlength, hreport outblob auxblob heq⟩
      cases removed with
      | error exc =>
        cases hremoved
        exact ⟨rfl, rfl, by simp, hfinal⟩
      | ok u =>
        cases hremoved
        exact ⟨rfl, rfl, by simp, hfinal⟩

/-- A collector that works on one entry. -/
def ownEntry : Discipline Str TsmCall TsmReply where
  may name c := c.entry = name
  effect name _ _ name' := name' = name

/-- A collector works on the entry that it picked the name of. -/
theorem collectReport_ownEntry (data : Bytes) (expect : Str) (pid : Nat) (token : Bytes) :
    (collectReport data expect pid token).Meets ownEntry (fun _ name => name = tsmEntry pid token) (tsmEntry pid token) := by
  have hread : (readReport (tsmEntry pid token) data expect).Meets ownEntry (fun _ name => name = tsmEntry pid token)
      (tsmEntry pid token) := by
    refine ⟨rfl, fun written name hname => ?_⟩
    subst hname
    cases written with
    | error exc => exact rfl
    | ok u =>
      refine ⟨rfl, fun named name hname => ?_⟩
      subst hname
      cases named with
      | error exc => cases exc <;> exact rfl
      | ok text =>
        dsimp only
        split
        · exact rfl
        refine ⟨rfl, fun reported name hname => ?_⟩
        subst hname
        cases reported with
        | error exc => exact rfl
        | ok outblob =>
          dsimp only
          split
          · exact rfl
          refine ⟨rfl, fun certified name hname => ?_⟩
          subst hname
          cases certified <;> exact rfl
  unfold collectReport
  split
  · exact rfl
  refine ⟨rfl, fun made name hname => ?_⟩
  subst hname
  cases made with
  | error exc => exact rfl
  | ok u =>
    refine (hread.mono fun result name hname => ?_).andThen
    exact ⟨hname.symm, fun _ name' hname' => hname'.trans hname⟩

/-- What a collector holds tells what it was answered: its entry was made for it, and one it has abandoned could not be
removed. -/
structure TsmHeld.Tells (o : TsmHeld) (answers : List (Answer TsmCall TsmReply)) : Prop where
  made : ∀ name, o.hold.names name → ⟨.mkdir name, .ok ()⟩ ∈ answers
  stuck : ∀ name, o.hold = .abandoned name → ∃ exc, ⟨.rmdir name, .error exc⟩ ∈ answers

omit [Interp] in
theorem TsmHeld.Tells.mono {o : TsmHeld} {answers : List (Answer TsmCall TsmReply)} (h : o.Tells answers)
    (answer : Answer TsmCall TsmReply) : o.Tells (answer :: answers) where
  made := fun name hname => List.mem_cons_of_mem _ (h.made name hname)
  stuck := fun name hname => (h.stuck name hname).imp fun _ hmem => List.mem_cons_of_mem _ hmem

/-- **One answer**: what the collector then holds tells it. -/
theorem TsmHeld.Tells.answered (driver : TsmDriver) (o : TsmHeld) (c : TsmCall) (r : TsmReply c) (o' : TsmHeld)
    (answers : List (Answer TsmCall TsmReply)) (h : o.Tells answers) (hmay : driver.discipline.may o c)
    (heffect : driver.discipline.effect o c r o') : o'.Tells (⟨c, r⟩ :: answers) := by
  have hsame := h.mono ⟨c, r⟩
  -- an entry that is the collector's stays so, whatever was written there
  have hwritten : ∀ {entry : Str} {b b' : Option Bytes}, o.hold = .entry entry b →
      ({ o with hold := .entry entry b' } : TsmHeld).Tells (⟨c, r⟩ :: answers) := by
    intro entry b b' hhold
    refine ⟨fun name hname => hsame.made name (by rw [hhold]; exact hname), fun name hname => ?_⟩
    cases hname
  cases c with
  | mkdir entry =>
    cases r with
    | error exc => exact heffect ▸ hsame
    | ok u =>
      cases heffect
      refine ⟨fun name hname => ?_, fun name hname => ?_⟩
      · cases hname
        exact List.mem_cons_self
      · cases hname
  | writeInblob entry data =>
    obtain ⟨⟨b, hhold⟩, _⟩ := hmay
    cases r with
    | error exc =>
      obtain ⟨b', rfl⟩ := heffect
      exact hwritten hhold
    | ok u =>
      cases heffect
      exact hwritten hhold
  | readProvider entry =>
    cases r with
    | error exc => exact heffect ▸ hsame
    | ok text => exact heffect.2 ▸ hsame
  | readOutblob entry =>
    cases r with
    | error exc => exact heffect ▸ hsame
    | ok report => exact heffect.2 ▸ hsame
  | readAuxblob entry => exact heffect ▸ hsame
  | rmdir entry =>
    obtain ⟨b, hhold⟩ := hmay
    cases r with
    | error exc =>
      cases heffect
      refine ⟨fun name hname => hsame.made name (by rw [hhold]; exact hname), fun name hname => ?_⟩
      cases hname
      exact ⟨exc, List.mem_cons_self⟩
    | ok u =>
      cases heffect
      exact ⟨fun name hname => hname.elim, fun name hname => by cases hname⟩

/-! ## What the directory keeps between them -/

variable {ι : Type} {data : ι → Bytes} {expect : ι → Str}

/-- The entries collectors made are theirs, each of one of them, and nothing was signed for one that it did not ask. -/
structure TsmInv (driver : TsmDriver) (data : ι → Bytes) (expect : ι → Str) (s : TsmFs) (held : ι → TsmHeld) : Prop where
  called : ∀ i, (held i).data = data i ∧ (held i).expect = expect i
  owned : ∀ i name b, (held i).hold = .entry name b → s.entries name = some ⟨b, true⟩
  abandoned : ∀ i name, (held i).hold = .abandoned name → name ∈ s.stuck ∧ ∃ b, s.entries name = some ⟨b, true⟩
  exclusive : ∀ i j name, (held i).hold.names name → (held j).hold.names name → i = j
  accounted : ∀ name b, s.entries name = some ⟨b, true⟩ → ∃ i, (held i).hold.names name
  signed : ∀ d ∈ s.signed, ∃ i, d = data i ∧ expect i = strip driver.provider

/-- The entry a collector names is there. -/
theorem TsmInv.exists_entry {driver : TsmDriver} {s : TsmFs} {held : ι → TsmHeld} (h : TsmInv driver data expect s held) {i : ι}
    {name : Str} (hnames : (held i).hold.names name) : ∃ b, s.entries name = some ⟨b, true⟩ := by
  cases hhold : (held i).hold with
  | nothing =>
    rw [hhold] at hnames
    exact hnames.elim
  | entry name' b =>
    rw [hhold] at hnames
    cases hnames
    exact ⟨b, h.owned i _ b hhold⟩
  | abandoned name' =>
    rw [hhold] at hnames
    cases hnames
    exact (h.abandoned i _ hhold).2

/-- **A report asked for**, by a collector over its own data. -/
theorem TsmInv.sign {driver : TsmDriver} {s : TsmFs} {held : ι → TsmHeld} (h : TsmInv driver data expect s held) {i : ι}
    (hexpect : (held i).expect = strip driver.provider) : TsmInv driver data expect (s.sign (held i).data) held where
  called := h.called
  owned := h.owned
  abandoned := h.abandoned
  exclusive := h.exclusive
  accounted := h.accounted
  signed := by
    intro d hmem
    rw [TsmFs.sign_signed, List.mem_append, List.mem_singleton] at hmem
    rcases hmem with hmem | rfl
    · exact h.signed d hmem
    · exact ⟨i, (h.called i).1, (h.called i).2 ▸ hexpect⟩

/-- Other software changes nothing that the collectors hold. -/
theorem TsmInv.others {driver : TsmDriver} {s s' : TsmFs} {held : ι → TsmHeld} (h : TsmInv driver data expect s held)
    (hchange : s.OthersChange s') : TsmInv driver data expect s' held := by
  obtain ⟨hsigned, hstuck, hentries⟩ := hchange
  exact
    { called := h.called
      owned := fun i name b hi => (hentries name _ rfl).mpr (h.owned i name b hi)
      abandoned := by
        intro i name hi
        obtain ⟨hmem, b, hb⟩ := h.abandoned i name hi
        exact ⟨hstuck ▸ hmem, b, (hentries name _ rfl).mpr hb⟩
      exclusive := h.exclusive
      accounted := fun name b hb => h.accounted name b ((hentries name _ rfl).mp hb)
      signed := fun d hd => h.signed d (hsigned ▸ hd) }

variable [DecidableEq ι]

/-- What a collector was called with stays what it was. -/
theorem TsmInv.called_update {driver : TsmDriver} {s : TsmFs} {held : ι → TsmHeld}
    (h : TsmInv driver data expect s held) (i : ι) (hold : TsmHold) (j : ι) :
    (Function.update held i { held i with hold := hold } j).data = data j ∧
      (Function.update held i { held i with hold := hold } j).expect = expect j := by
  by_cases hij : j = i
  · subst hij
    simpa using h.called j
  · simpa [Function.update_of_ne hij] using h.called j

/-- **An entry made or written**: the collector has it, and nobody else had. -/
theorem TsmInv.set {driver : TsmDriver} {s : TsmFs} {held : ι → TsmHeld} (h : TsmInv driver data expect s held) {i : ι}
    {name : Str} {b : Option Bytes} (hfree : ∀ j, (held j).hold.names name → j = i)
    (honly : ∀ other, (held i).hold.names other → other = name) :
    TsmInv driver data expect (s.set name (some ⟨b, true⟩)) (Function.update held i { held i with hold := .entry name b }) := by
  have hother : ∀ {j : ι} {other : Str}, j ≠ i → (held j).hold.names other → other ≠ name := by
    intro j other hij hnames heq
    exact hij (hfree j (heq ▸ hnames))
  have hnames : ∀ {j : ι} {other : Str},
      (Function.update held i { held i with hold := .entry name b } j).hold.names other →
        (j = i ∧ other = name) ∨ (j ≠ i ∧ (held j).hold.names other) := by
    intro j other hj
    by_cases hij : j = i
    · subst hij
      rw [Function.update_self] at hj
      exact .inl ⟨rfl, hj.symm⟩
    · rw [Function.update_of_ne hij] at hj
      exact .inr ⟨hij, hj⟩
  exact
    { called := h.called_update i _
      owned := by
        intro j other b' hj
        by_cases hij : j = i
        · subst hij
          rw [Function.update_self] at hj
          cases hj
          exact TsmFs.set_entries_self _ _ _
        · rw [Function.update_of_ne hij] at hj
          rw [TsmFs.set_entries_of_ne (hother hij (by rw [hj]; rfl))]
          exact h.owned j other b' hj
      abandoned := by
        intro j other hj
        by_cases hij : j = i
        · subst hij
          rw [Function.update_self] at hj
          cases hj
        · rw [Function.update_of_ne hij] at hj
          rw [TsmFs.set_entries_of_ne (hother hij (by rw [hj]; rfl))]
          exact h.abandoned j other hj
      exclusive := by
        intro j k other hj hk
        rcases hnames hj with ⟨hji, hname⟩ | ⟨hji, hj'⟩
        · rcases hnames hk with ⟨hki, _⟩ | ⟨hki, hk'⟩
          · rw [hji, hki]
          · exact absurd hname (hother hki hk')
        · rcases hnames hk with ⟨_, hname⟩ | ⟨_, hk'⟩
          · exact absurd hname (hother hji hj')
          · exact h.exclusive j k other hj' hk'
      accounted := by
        intro other b' hentry
        by_cases hname : other = name
        · exact ⟨i, by rw [Function.update_self]; exact hname.symm⟩
        · rw [TsmFs.set_entries_of_ne hname] at hentry
          obtain ⟨j, hj⟩ := h.accounted other b' hentry
          have hij : j ≠ i := fun hij => hname (honly other (hij ▸ hj))
          exact ⟨j, by rw [Function.update_of_ne hij]; exact hj⟩
      signed := h.signed }

/-- **An entry removed**, by the collector that made it. -/
theorem TsmInv.remove {driver : TsmDriver} {s : TsmFs} {held : ι → TsmHeld} (h : TsmInv driver data expect s held) {i : ι}
    {name : Str} {b : Option Bytes} (hhold : (held i).hold = .entry name b) :
    TsmInv driver data expect (s.set name none) (Function.update held i { held i with hold := .nothing }) := by
  have hmine : (held i).hold.names name := by rw [hhold]; rfl
  have hother : ∀ {j : ι} {other : Str}, j ≠ i → (held j).hold.names other → other ≠ name := by
    intro j other hij hnames heq
    exact hij (h.exclusive j i name (heq ▸ hnames) hmine)
  have hnames : ∀ {j : ι} {other : Str},
      (Function.update held i { held i with hold := .nothing } j).hold.names other → j ≠ i ∧ (held j).hold.names other := by
    intro j other hj
    by_cases hij : j = i
    · subst hij
      rw [Function.update_self] at hj
      exact hj.elim
    · rw [Function.update_of_ne hij] at hj
      exact ⟨hij, hj⟩
  exact
    { called := h.called_update i _
      owned := by
        intro j other b' hj
        obtain ⟨hij, hj'⟩ := @hnames j other (by rw [hj]; rfl)
        rw [Function.update_of_ne hij] at hj
        rw [TsmFs.set_entries_of_ne (hother hij hj')]
        exact h.owned j other b' hj
      abandoned := by
        intro j other hj
        obtain ⟨hij, hj'⟩ := @hnames j other (by rw [hj]; rfl)
        rw [Function.update_of_ne hij] at hj
        rw [TsmFs.set_entries_of_ne (hother hij hj')]
        exact h.abandoned j other hj
      exclusive := fun j k other hj hk => h.exclusive j k other (hnames hj).2 (hnames hk).2
      accounted := by
        intro other b' hentry
        have hname : other ≠ name := by
          intro heq
          rw [heq, TsmFs.set_entries_self] at hentry
          cases hentry
        rw [TsmFs.set_entries_of_ne hname] at hentry
        obtain ⟨j, hj⟩ := h.accounted other b' hentry
        have hij : j ≠ i := by
          intro hij
          subst hij
          rw [hhold] at hj
          exact hname hj.symm
        exact ⟨j, by rw [Function.update_of_ne hij]; exact hj⟩
      signed := h.signed }

/-- **An entry left behind**: it stays the collector's. -/
theorem TsmInv.abandon {driver : TsmDriver} {s : TsmFs} {held : ι → TsmHeld} (h : TsmInv driver data expect s held) {i : ι}
    {name : Str} {b : Option Bytes} (hhold : (held i).hold = .entry name b) :
    TsmInv driver data expect { s with stuck := name :: s.stuck } (Function.update held i { held i with hold := .abandoned name }) := by
  have hnames : ∀ {j : ι} {other : Str},
      (Function.update held i { held i with hold := .abandoned name } j).hold.names other ↔ (held j).hold.names other := by
    intro j other
    by_cases hij : j = i
    · subst hij
      rw [Function.update_self, hhold]
      rfl
    · rw [Function.update_of_ne hij]
  exact
    { called := h.called_update i _
      owned := by
        intro j other b' hj
        by_cases hij : j = i
        · subst hij
          rw [Function.update_self] at hj
          cases hj
        · rw [Function.update_of_ne hij] at hj
          exact h.owned j other b' hj
      abandoned := by
        intro j other hj
        by_cases hij : j = i
        · subst hij
          rw [Function.update_self] at hj
          cases hj
          exact ⟨List.mem_cons_self, b, h.owned _ _ _ hhold⟩
        · rw [Function.update_of_ne hij] at hj
          obtain ⟨hstuck, hentry⟩ := h.abandoned j other hj
          exact ⟨List.mem_cons_of_mem _ hstuck, hentry⟩
      exclusive := fun j k other hj hk => h.exclusive j k other (hnames.mp hj) (hnames.mp hk)
      accounted := by
        intro other b' hentry
        obtain ⟨j, hj⟩ := h.accounted other b' hentry
        exact ⟨j, hnames.mpr hj⟩
      signed := h.signed }

/-- **One call**: the directory keeps the collectors apart. -/
theorem TsmDriver.kept (driver : TsmDriver) : driver.discipline.Kept driver.host (TsmInv driver data expect) := by
  refine ⟨fun s held i c r s' h hmay hserved => ?_, fun s held s' h hchange => h.others hchange⟩
  have hsame : TsmInv driver data expect s (Function.update held i (held i)) := by rwa [Function.update_eq_self]
  have hfree : ∀ {name : Str}, (held i).hold.names name → ∀ j, (held j).hold.names name → j = i :=
    fun hi j hj => h.exclusive j i _ hj hi
  cases c with
  | mkdir name =>
    cases r with
    | error exc =>
      cases hserved
      exact ⟨held i, rfl, hsame⟩
    | ok u =>
      obtain ⟨hnone, rfl⟩ := hserved
      refine ⟨_, rfl, h.set (fun j hj => ?_) fun other hother => ?_⟩
      · obtain ⟨b, hb⟩ := h.exists_entry hj
        rw [hnone] at hb
        cases hb
      · rw [show (held i).hold = .nothing from hmay] at hother
        exact hother.elim
  | writeInblob name inblob =>
    obtain ⟨⟨b, hhold⟩, rfl⟩ := hmay
    have hmine : (held i).hold.names name := by rw [hhold]; rfl
    have honly : ∀ other, (held i).hold.names other → other = name := by
      intro other hother
      rw [hhold] at hother
      exact hother.symm
    have hentry := h.owned i name b hhold
    cases r with
    | error exc =>
      rcases hserved with rfl | ⟨e, written, he, rfl⟩
      · refine ⟨held i, ⟨b, ?_⟩, hsame⟩
        rw [← hhold]
      · cases he.symm.trans hentry
        exact ⟨_, ⟨written, rfl⟩, h.set (hfree hmine) honly⟩
    | ok u =>
      obtain ⟨e, he, rfl⟩ := hserved
      cases he.symm.trans hentry
      exact ⟨_, rfl, h.set (hfree hmine) honly⟩
  | readProvider name =>
    cases r with
    | error exc =>
      cases hserved
      exact ⟨held i, rfl, hsame⟩
    | ok text =>
      obtain ⟨_, rfl, rfl⟩ := hserved
      exact ⟨held i, ⟨rfl, rfl⟩, hsame⟩
  | readOutblob name =>
    obtain ⟨hhold, hexpect⟩ := hmay
    have hentry := h.owned i name _ hhold
    have hsigned : TsmInv driver data expect (s.sign (held i).data) (Function.update held i (held i)) := by
      rw [Function.update_eq_self]
      exact h.sign hexpect
    cases r with
    | error exc =>
      rcases hserved with rfl | ⟨e, inblob, he, hinblob, rfl⟩
      · exact ⟨held i, rfl, hsame⟩
      · cases he.symm.trans hentry
        cases hinblob
        exact ⟨held i, rfl, hsigned⟩
    | ok report =>
      obtain ⟨e, inblob, he, hinblob, hreport, rfl⟩ := hserved
      cases he.symm.trans hentry
      cases hinblob
      exact ⟨held i, ⟨hreport, rfl⟩, hsigned⟩
  | readAuxblob name =>
    cases r with
    | error exc =>
      cases hserved
      exact ⟨held i, rfl, hsame⟩
    | ok auxblob =>
      cases hserved
      exact ⟨held i, rfl, hsame⟩
  | rmdir name =>
    obtain ⟨b, hhold⟩ := hmay
    cases r with
    | error exc =>
      cases hserved
      exact ⟨_, rfl, h.abandon hhold⟩
    | ok u =>
      obtain ⟨_, rfl⟩ := hserved
      exact ⟨_, rfl, h.remove hhold⟩

omit [Interp] in
/-- A collector that works on one entry needs nothing of the directory. -/
theorem ownEntry_kept (driver : TsmDriver) (names : ι → Str) :
    ownEntry.Kept driver.host fun _ held => held = names where
  call := by
    intro s held i c r s' hheld _ _
    exact ⟨held i, rfl, by rwa [Function.update_eq_self]⟩
  other := fun _ _ _ hheld _ => hheld

/-- A collector is answered on its own entry. -/
theorem own_of_trace (driver : TsmDriver) {pid : ι → Nat} {token : ι → Bytes} {before after : TsmFs}
    {progs : ι → Collector (Bytes × Option Bytes)} {log : ι → List (Answer TsmCall TsmReply)}
    (htrace : driver.host.Trace (before, fun i => collectReport (data i) (expect i) (pid i) (token i)) log (after, progs))
    (i : ι) : ∀ answer ∈ log i, answer.call.entry = tsmEntry (pid i) (token i) := by
  obtain ⟨held, rfl, _, htold⟩ := (ownEntry_kept driver fun i => tsmEntry (pid i) (token i)).trace
    (fun name answers => ∀ answer ∈ answers, answer.call.entry = name)
    (fun name c r name' answers hown hmay hname answer hanswer => by
      rw [show name' = name from hname]
      rcases List.mem_cons.mp hanswer with rfl | hanswer
      · exact hmay
      · exact hown answer hanswer) htrace rfl (fun _ => by simp) fun i => collectReport_ownEntry _ _ _ _
  exact htold i

/-- **Collectors side by side.** However many collect at once, under whatever names, and in whatever order their file
operations are answered, fail or interleave with other software of the host: a report that one returns is over the data
it was called with and from the provider it expects, the platform signed for them only what one of them asked of the
platform it expects, and an entry of theirs that is left was made for the collector that picked its name, which still runs
or was refused its removal. -/
theorem tsm_collectors (driver : TsmDriver) {pid : ι → Nat} {token : ι → Bytes}
    {before after : TsmFs} {progs : ι → Collector (Bytes × Option Bytes)} {log : ι → List (Answer TsmCall TsmReply)}
    (hsigned : before.signed = []) (hclean : ∀ entry e, before.entries entry = some e → e.collectors = false)
    (htrace : driver.host.Trace (before, fun i => collectReport (data i) (expect i) (pid i) (token i)) log (after, progs)) :
    (∀ i outblob auxblob, progs i = .ret (.ok (outblob, auxblob)) →
      driver.Reports (data i) outblob ∧ expect i = strip driver.provider ∧ (data i).length ≤ reportDataLen ∧
        outblob ≠ [] ∧ auxblob ≠ some []) ∧
    (∀ d ∈ after.signed, ∃ i, d = data i ∧ expect i = strip driver.provider) ∧
    ∀ entry e, after.entries entry = some e → e.collectors = true →
      ∃ i, entry = tsmEntry (pid i) (token i) ∧ ⟨.mkdir entry, .ok ()⟩ ∈ log i ∧
        ((∀ result, progs i ≠ .ret result) ∨ ∃ exc, ⟨.rmdir entry, .error exc⟩ ∈ log i) := by
  have hstart : TsmInv driver data expect before (fun i => ⟨data i, expect i, .nothing⟩) := by
    refine ⟨fun _ => ⟨rfl, rfl⟩, fun _ _ _ h => ?_, fun _ _ h => ?_, fun _ _ _ h => h.elim, fun name b h => ?_,
      by simp [hsigned]⟩
    · cases h
    · cases h
    · cases hclean _ _ h
  obtain ⟨held, hinv, hmeets, htold⟩ : ∃ held, TsmInv driver data expect after held ∧
      (∀ i, (progs i).Meets driver.discipline (Collected driver (data i) (expect i)) (held i)) ∧
      ∀ i, (held i).Tells (log i) :=
    driver.kept.trace TsmHeld.Tells (TsmHeld.Tells.answered driver) htrace hstart
      (fun _ => ⟨fun _ h => h.elim, fun _ h => by cases h⟩) fun i => collectReport_meets driver _ _ _ _
  refine ⟨fun i outblob auxblob hret => ?_, hinv.signed, fun entry e hentry hcollectors => ?_⟩
  · have hpost := hmeets i
    simp only [hret] at hpost
    obtain ⟨hlength, hexpect, hreport, hne, haux⟩ := Collected.report hpost _ _ rfl
    exact ⟨hreport, hexpect, hlength, hne, haux⟩
  · obtain ⟨b, c⟩ := e
    cases hcollectors
    obtain ⟨i, hi⟩ := hinv.accounted entry b hentry
    have hmade := (htold i).made entry hi
    refine ⟨i, own_of_trace driver htrace i _ hmade, hmade, ?_⟩
    by_cases hdone : ∃ result, progs i = .ret result
    · obtain ⟨result, hret⟩ := hdone
      have hpost := hmeets i
      simp only [hret] at hpost
      cases hhold : (held i).hold with
      | nothing =>
        rw [hhold] at hi
        exact hi.elim
      | entry name b => exact absurd hhold (Collected.removed hpost name b)
      | abandoned name =>
        rw [hhold] at hi
        cases hi
        exact .inr ((htold i).stuck _ hhold)
    · exact .inl fun result hret => hdone ⟨result, hret⟩

end

/-! ## Two collectors under one name -/

/-- A TDX guest that reports the data after a marker. -/
def toyDriver : TsmDriver where
  provider := lit "tdx_guest\n"
  Reports := fun data report => report = 0 :: data

/-- The directory before anyone collects. -/
def TsmFs.empty : TsmFs := { entries := fun _ => none, signed := [], stuck := [] }

/-- The second of two collectors that picked one name is refused, and the first gets its report. -/
theorem tsm_collectors_oneName :
    let _ := Interp.ascii
    ∃ after progs, toyDriver.host.Run
        (TsmFs.empty, fun b => collectReport (bif b then [1] else [2]) providerTdxGuest 7 [9]) (after, progs) ∧
      progs true = .ret (.ok ([0, 1], none)) ∧ (∃ e, progs false = .ret (.error e)) ∧
      toyDriver.Reports [1] [0, 1] ∧ ∀ d ∈ after.signed, ∃ b : Bool, d = bif b then [1] else [2] := by
  intro _
  let name := tsmEntry 7 [9]
  let made := TsmFs.empty.set name (some ⟨none, true⟩)
  let written := made.set name (some ⟨some [1], true⟩)
  let signed := written.sign [1]
  have hstart : (fun b => collectReport (bif b then [1] else [2]) providerTdxGuest 7 [9]) =
      sideBySide (collectReport [1] providerTdxGuest 7 [9]) (collectReport [2] providerTdxGuest 7 [9]) := by
    funext b
    cases b <;> rfl
  obtain ⟨e, hrun⟩ : ∃ e, toyDriver.host.Run
      (TsmFs.empty, fun b => collectReport (bif b then [1] else [2]) providerTdxGuest 7 [9])
      (signed.set name none, sideBySide (.ret (.ok ([0, 1], none))) (.ret (.error e))) := by
    rw [hstart]
    refine ⟨?refusal, ?run⟩
    case run =>
      refine run_left made (.ok ()) ⟨rfl, rfl⟩ ?_
      refine run_right made (.error ⟨lit "FileExistsError", lit "File exists"⟩) rfl ?_
      refine run_left written (.ok ()) ⟨_, TsmFs.set_entries_self _ _ _, rfl⟩ ?_
      refine run_left written (.ok toyDriver.provider) ⟨by simp [written, name], rfl, rfl⟩ ?_
      refine run_left signed (.ok [0, 1]) ⟨_, _, TsmFs.set_entries_self _ _ _, rfl, rfl, rfl⟩ ?_
      refine run_left signed (.error ⟨lit "FileNotFoundError", lit "No such file"⟩) rfl ?_
      refine run_left (signed.set name none) (.ok ()) ⟨by simp [signed, written, name], rfl⟩ ?_
      exact .refl
  obtain ⟨log, htrace⟩ := hrun.exists_trace
  obtain ⟨hreports, hsigned, _⟩ := tsm_collectors toyDriver rfl (by simp [TsmFs.empty]) htrace
  exact ⟨_, _, hrun, rfl, ⟨e, rfl⟩, (hreports true _ _ rfl).1, fun d hd => (hsigned d hd).imp fun _ h => h.1⟩

end Ca2a
