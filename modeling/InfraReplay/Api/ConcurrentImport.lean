import InfraReplay.Capture.Lifecycle
import InfraReplay.Common.Pool
import InfraReplay.Recording.ImportFrame

/-!
# Imports of one bundle at the same time

Any number of `import_recording` calls load one bundle, and the database serialises their
transactions in any order and refuses what does not fit. The clash check and the insert of the row
are two transactions: a call that checks while another stands between the two finds the id free as
well, and the later of the two inserts is refused (`not_succeeds_crowded`). When no call checks at
such a moment (`crowded`), every call whose recording fits returns one of its own that holds every
event (`succeeds_of_uncrowded`).

A call at any stage writes one recording, `Importer.recording`, and disturbs no other
(`Store.Writes`); the recordings of two calls share no id.
-/

namespace InfraReplay

open Python

/-! ### The calls -/

/-- Where a call of `import_recording` stands. -/
inductive Importer where
  | called (hex recordingHex : String) (eventHexes : List String)
  /-- The clash check is done; the recording may be a re-keyed one. -/
  | checked (hex : String) (recording : Recording)
  /-- The row is in. -/
  | opened (recording : Recording)
  /-- The events are in; or an earlier step has raised. -/
  | finishing (recording : Recording) (finisher : Finisher)

section Calls

variable (db : Database) (order : RowOrder) (r : Recording)

/-- What is left of the program of a call. -/
def Importer.code (models : Models) (doc : Dict String Value) :
    Importer → Prog Store Error Recording
  | .called hex recordingHex eventHexes =>
    importRecording models order hex recordingHex eventHexes doc
  | .checked hex recording => openImported order hex recording
  | .opened recording => do
    Prog.tx (Store.addEvents (redactedRows recording.events []))
    finishRecording order recording.recordingId
  | .finishing recording finisher => finisher.code order recording.recordingId

/-- The recording a call writes; before its check, the one it makes up when the id is taken. -/
def Importer.recording : Importer → Recording
  | .called _ recordingHex eventHexes => rekey recordingHex eventHexes r
  | .checked _ recording => recording
  | .opened recording => recording
  | .finishing recording _ => recording

/-- The next transaction of a call, as long as the database takes it; `r` is the parsed bundle. -/
def Importer.attempt (s : Store) : Importer → Option (Importer × Store)
  | .called hex recordingHex eventHexes =>
    some (.checked hex (settled recordingHex eventHexes s r), s)
  | .checked hex recording =>
    match s.addRecording (recording.asNew.row hex) with
    | .ok ((), s') =>
      some (if recording.events = [] then .finishing recording .start else .opened recording, s')
    | .error e => some (.finishing recording (.raised e), s)
  | .opened recording =>
    match s.addEvents (redactedRows recording.events []) with
    | .ok ((), s') => some (.finishing recording .start, s')
    | .error e => some (.finishing recording (.raised e), s)
  | .finishing recording finisher =>
    (finisher.step order recording.recordingId s).map fun next =>
      (.finishing recording next.1, next.2)

/-- The next step of a call: its transaction, or the exception that the database refuses it with. -/
def Importer.step (s : Store) (a : Importer) : Option (Importer × Store) :=
  (a.attempt order r s).map fun next =>
    match db.refuses 0 s next.2 with
    | none => next
    | some e => (.finishing (a.recording r) (.raised e), s)

variable {db order r}

/-- A step of an importer is a step of its program, when the bundle parses. -/
theorem Importer.attempt_code {models : Models} {doc : Dict String Value}
    (hparse : parseBundle models doc = .ok r) (a : Importer) (s : Store) :
    (a.code order models doc).step s =
      (a.attempt order r s).map fun next => (next.1.code order models doc, next.2) := by
  cases a with
  | called hex recordingHex eventHexes =>
    have hisSome : ((s.recordings.find? r.recordingId).map RecordingRow.status).isSome =
        (s.recordings.find? r.recordingId).isSome := Option.isSome_map
    rw [Importer.code, importRecording, hparse]
    show (Prog.read _ >>= _ : Prog Store Error Recording).step s = _
    rw [Prog.step_read_bind, hisSome]
    rfl
  | checked hex recording =>
    rw [Importer.code, openImported_eq, startRecording, bind_assoc, Prog.step_tx_bind,
      Importer.attempt]
    cases s.addRecording (recording.asNew.row hex) with
    | error e => rfl
    | ok next =>
      -- an empty batch is no transaction, so the call goes straight to `finish_recording`
      show some (importRest order recording, next.2) =
        some (Importer.code _ _ _ (ite _ _ _), next.2)
      unfold importRest appendEvents
      split_ifs
      · rfl
      · rw [bind_assoc]
        rfl
  | opened recording =>
    rw [Importer.code, Prog.step_tx_bind, Importer.attempt]
    cases s.addEvents (redactedRows recording.events []) <;> rfl
  | finishing recording finisher =>
    rw [Importer.code, Finisher.step_code, Importer.attempt, Option.map_map]
    rfl

/-- A finisher catches nothing. -/
theorem Finisher.uncaught_code (order : RowOrder) (recordingId : String) (f : Finisher) :
    (f.code order recordingId).Uncaught := by
  cases f with
  | start => exact uncaught_finishRecording order recordingId
  | hasRow row =>
    exact (Prog.uncaught_read _).bind fun _ => (Prog.uncaught_call _).bind fun _ =>
      (Prog.uncaught_tx _).bind fun _ => trivial
  | hasEvents row events =>
    exact (Prog.uncaught_call _).bind fun _ => (Prog.uncaught_tx _).bind fun _ => trivial
  | hasBlob row events locator => exact (Prog.uncaught_tx _).bind fun _ => trivial
  | returned recording => trivial
  | raised e => trivial

/-- Nor does an importer: what a statement raises ends it. -/
theorem Importer.uncaught_code (models : Models) (doc : Dict String Value) (a : Importer) :
    (a.code order models doc).Uncaught := by
  cases a with
  | called hex recordingHex eventHexes => exact uncaught_importRecording _ _ _ _ _ _
  | checked hex recording => exact uncaught_openImported _ _ _
  | opened recording =>
    exact (Prog.uncaught_tx _).bind fun _ => uncaught_finishRecording _ _
  | finishing recording finisher => exact finisher.uncaught_code _ _

/-- A turn of a call is the next atomic step of its program, on a database that works. -/
theorem Importer.step_code {models : Models} {doc : Dict String Value}
    (hparse : parseBundle models doc = .ok r) (a : Importer) (s : Store) :
    (a.code order models doc).stepUnder (db.refuses 0) s =
      (a.step db order r s).map fun next => (next.1.code order models doc, next.2) := by
  rw [(a.uncaught_code models doc).stepUnder_eq, attempt_code hparse, Importer.step,
    Option.map_map, Option.map_map]
  refine congrArg (Option.map · _) (funext fun next => ?_)
  simp only [Function.comp_apply]
  cases db.refuses 0 s next.2 <;> rfl

end Calls

/-- The call stands between its check and the insert of its row. -/
def Importer.isChecked : Importer → Bool
  | .checked _ _ => true
  | _ => false

/-- The steps `finish_recording` can still take. -/
def Finisher.stepsLeft : Finisher → ℕ
  | .start => 4
  | .hasRow _ => 3
  | .hasEvents _ _ => 2
  | .hasBlob _ _ _ => 1
  | .returned _ | .raised _ => 0

/-- The steps a call can still take, at most. -/
def Importer.stepsLeft : Importer → ℕ
  | .called _ _ _ => 7
  | .checked _ _ => 6
  | .opened _ => 5
  | .finishing _ finisher => finisher.stepsLeft

/-- What a call has returned. -/
def Importer.returned : Importer → Option Recording
  | .finishing _ (.returned recording) => some recording
  | _ => none

/-- The calls and the store. -/
abbrev Imports : Type := Pool Store Importer

/-- A call makes its check while the id of the bundle is free and another call stands between its
own check and the insert of its row. -/
def crowded (r : Recording) (c : Imports) (i : ℕ) : Bool :=
  match c.tasks[i]? with
  | some (.called _ _ _) =>
    (c.state.recordings.find? r.recordingId).isNone && c.tasks.any Importer.isChecked
  | _ => false

/-! ### Recordings that share no id -/

/-- Two recordings share neither their id nor the id of an event, and the snapshot of neither needs
a directory in the place of the other. -/
structure Recording.Apart (r r' : Recording) : Prop where
  recordingId : r.recordingId ≠ r'.recordingId
  events : ∀ id ∈ r.events.map Event.eventId, id ∉ r'.events.map Event.eventId
  files : BlobRoot.clearKeys (snapshotKey r.recordingId) (snapshotKey r'.recordingId) = true

/-- Apart is symmetric. -/
theorem Recording.Apart.symm {r r' : Recording} (h : r.Apart r') : r'.Apart r where
  recordingId := h.recordingId.symm
  events id hid hid' := h.events id hid' hid
  files := by rw [BlobRoot.clearKeys_comm, h.files]

/-- What makes a bundle importable: it has a name, and its events have ids of their own and belong
to it. -/
structure Recording.Valid (r : Recording) : Prop where
  named : r.recordingId ≠ ""
  nodup : (r.events.map Event.eventId).Nodup
  owned : ∀ e ∈ r.events, e.recordingId = r.recordingId

/-- The columns take the rows of the recording. -/
structure Database.Fits (db : Database) (w : Recording) : Prop where
  row : db.takesRecording (w.asNew.row "") = true
  rows : ∀ row ∈ redactedRows w.events [], db.takesEvent row = true

/-- Nothing stands in the way of the recording: neither its id nor the id of one of its events is in
the store, its snapshot can be written, and the numbers of its events fit. -/
structure Store.HasRoom (db : Database) (s : Store) (w : Recording) : Prop where
  recording : s.recordings.find? w.recordingId = none
  events : ∀ e ∈ w.events, e.eventId ∉ s.events.rows.map EventRow.eventId
  file : s.blobs.takesKey (snapshotKey w.recordingId) = true
  numbers : ∀ i < (s.eventRows w.recordingId).length + w.events.length,
    db.integer (i : ℤ) = true

/-- `r'` holds every event of `r`, redacted, under ids that tell the events of `r` apart. -/
def Recording.HoldsAll (r r' : Recording) : Prop :=
  ∃ rename : String → String,
    (∀ id ∈ r.events.map Event.eventId, ∀ id' ∈ r.events.map Event.eventId,
      rename id = rename id' → id = id') ∧
    ∀ e ∈ r.events, ∃ n parent,
      { redact e with
        recordingId := r'.recordingId
        eventId := rename e.eventId
        sequence := n
        parentEventId := parent } ∈ r'.events

/-- No call has taken a step: the bundle is valid and fits, its id is taken or there is room for it,
and the made-up ids are new to the store, to the bundle and to each other and leave room for the
re-keyed bundle. -/
structure Imports.Starting (db : Database) (r : Recording) (c : Imports) : Prop where
  valid : r.Valid
  fits : db.Fits r
  holds : db.holds c.state = true
  store : (c.state.recordings.find? r.recordingId).isSome ∨ c.state.HasRoom db r
  called : ∀ a ∈ c.tasks, ∃ hex recordingHex eventHexes,
    a = .called hex recordingHex eventHexes ∧ FreshIds c.state r recordingHex eventHexes ∧
      db.Fits (rekey recordingHex eventHexes r) ∧
      c.state.HasRoom db (rekey recordingHex eventHexes r) ∧
      (rekey recordingHex eventHexes r).Apart r
  apart : c.tasks.Pairwise fun a b => (a.recording r).Apart (b.recording r)

/-- No call refuses another: none has raised, each that has not returned can go on, and those that
have returned have a recording each, which is stored as it was returned and holds every event. -/
structure Imports.Succeeds (db : Database) (r : Recording) (c : Imports) : Prop where
  unraised : ∀ recording e, .finishing recording (.raised e) ∉ c.tasks
  moves : ∀ order i a, c.tasks[i]? = some a → a.returned = none →
    (c.step (Importer.step db order r) i).isSome
  own : c.tasks.Pairwise fun a b => ∀ r₁ ∈ a.returned, ∀ r₂ ∈ b.returned,
    r₁.recordingId ≠ r₂.recordingId
  whole : ∀ a ∈ c.tasks, ∀ r' ∈ a.returned,
    r.HoldsAll r' ∧ ∀ order, c.state.eventsFor order r'.recordingId = r'.events

/-! ### What a call changes -/

/-- From `s` to `s'` the recording `w` is written and no other. -/
structure Store.Writes (w : Recording) (s s' : Store) : Prop where
  untouched : ∀ id ≠ w.recordingId, Untouched s s' id
  eventIds : ∀ id ∈ s'.events.rows.map EventRow.eventId,
    id ∈ s.events.rows.map EventRow.eventId ∨ id ∈ w.events.map Event.eventId
  files : ∀ key, BlobRoot.clearKeys (snapshotKey w.recordingId) key = true →
    s.blobs.takesKey key = true → s'.blobs.takesKey key = true

/-- The recording has its row and the rows of its events, and can be finished. -/
structure Store.HasAll (db : Database) (s : Store) (w : Recording) : Prop where
  recording : (s.recordings.find? w.recordingId).isSome
  events : ∀ e ∈ w.events, ∃ row ∈ s.eventRows w.recordingId, row.event = redact e
  file : s.blobs.takesKey (snapshotKey w.recordingId) = true
  numbers : ∀ i < (s.eventRows w.recordingId).length, db.integer (i : ℤ) = true

/-- Writing nothing is writing. -/
theorem Store.Writes.refl (w : Recording) (s : Store) : s.Writes w s where
  untouched _ _ := .refl s _
  eventIds _ h := .inl h
  files _ _ h := h

section Writes

variable {db : Database} {r w w' : Recording} {s s' : Store} {order : RowOrder}

/-- Inserting the row of `w` writes for `w` only. -/
theorem Store.writes_addRecording {row : RecordingRow} {u : Unit}
    (h : s.addRecording row = .ok (u, s')) (hid : row.recordingId = w.recordingId) :
    s.Writes w s' where
  untouched id hne := by
    refine ⟨?_, Store.find?_addRecording_of_ne h (by rw [hid]; exact hne)⟩
    rw [Store.eventRows, (Store.addRecording_eq_ok h).2.1]
    rfl
  eventIds id hmem := by
    rw [(Store.addRecording_eq_ok h).2.1] at hmem
    exact .inl hmem
  files key _ hkey := by rwa [(Store.addRecording_eq_ok h).2.2.2]

/-- Inserting the events of `w` writes for `w` only. -/
theorem Store.writes_addEvents {u : Unit} (hown : ∀ e ∈ w.events, e.recordingId = w.recordingId)
    (h : s.addEvents (redactedRows w.events []) = .ok (u, s')) : s.Writes w s' where
  untouched id hne := by
    refine ⟨eventRows_addEvents_foreign h fun e he => ?_, by rw [(Store.addEvents_eq_ok h).2.1]⟩
    rw [hown e he]
    exact hne.symm
  eventIds id hmem := by
    rw [(Store.addEvents_eq_ok h).1, List.map_append, map_eventId_redactedRows] at hmem
    exact List.mem_append.mp hmem
  files key _ hkey := by rwa [(Store.addEvents_eq_ok h).2.2.2]

/-- The snapshot is no part of the tables. -/
theorem Store.writes_putBlob {document : Value} {path : List String}
    (h : s.putBlob (snapshotKey w.recordingId) document = (.ok path, s')) : s.Writes w s' where
  untouched id hne := by
    obtain ⟨-, b, rfl, -⟩ := Store.putBlob_eq_ok h
    exact ⟨rfl, rfl⟩
  eventIds id hmem := by
    obtain ⟨-, b, rfl, -⟩ := Store.putBlob_eq_ok h
    exact .inl hmem
  files key hclear hkey := BlobRoot.takesKey_put (Store.put_of_putBlob h) hkey hclear

/-- Finishing `w` writes for `w` only. -/
theorem Store.writes_complete (order : RowOrder) (locator : List String) :
    s.Writes w
      (s.complete w.recordingId (correlate (s.eventsFor order w.recordingId)) locator) where
  untouched id hne :=
    ⟨eventRows_correlated_of_ne s hne order locator, Store.find?_complete_of_ne hne _ locator⟩
  eventIds id hmem := by
    rw [← Store.map_eventId_placeEvents]
    exact .inl hmem
  files key _ hkey := by rwa [Store.blobs_complete]

/-- There is still room for a recording that is apart from the one that is written. -/
theorem Store.HasRoom.of_writes (h : s.HasRoom db w') (hw : s.Writes w s') (hapart : w'.Apart w) :
    s'.HasRoom db w' where
  recording := by rw [(hw.untouched _ hapart.recordingId).recording, h.recording]
  events e he hmem := by
    rcases hw.eventIds _ hmem with hmem | hmem
    · exact h.events e he hmem
    · exact hapart.events _ (List.mem_map_of_mem he) hmem
  file := hw.files _ hapart.symm.files h.file
  numbers := by rw [(hw.untouched _ hapart.recordingId).events]; exact h.numbers

/-- What is stored whole stays so while others, apart from it, are written. -/
theorem Store.HasAll.of_writes (h : s.HasAll db w') (hw : s.Writes w s') (hapart : w'.Apart w) :
    s'.HasAll db w' where
  recording := by rw [(hw.untouched _ hapart.recordingId).recording]; exact h.recording
  events := by rw [(hw.untouched _ hapart.recordingId).events]; exact h.events
  file := hw.files _ hapart.symm.files h.file
  numbers := by rw [(hw.untouched _ hapart.recordingId).events]; exact h.numbers

/-- The row of a missing recording can be inserted. -/
theorem Store.HasRoom.exists_addRecording (h : s.HasRoom db w) (hnamed : w.recordingId ≠ "")
    (hex : String) : ∃ s', s.addRecording (w.asNew.row hex) = .ok ((), s') := by
  refine Store.exists_addRecording ?_
  show w.asNew.chosenId hex ∉ _
  rw [chosenId_asNew hnamed]
  exact Table.find?_eq_none_iff.mp h.recording

/-- The inserted rows are there. -/
theorem Store.hasAll_of_addEvents {u : Unit} (hown : ∀ e ∈ w.events, e.recordingId = w.recordingId)
    (hrow : (s.recordings.find? w.recordingId).isSome)
    (hfile : s.blobs.takesKey (snapshotKey w.recordingId) = true)
    (hnumbers : ∀ i < (s.eventRows w.recordingId).length + w.events.length,
      db.integer (i : ℤ) = true)
    (h : s.addEvents (redactedRows w.events []) = .ok (u, s')) : s'.HasAll db w where
  recording := by
    rw [(Store.addEvents_eq_ok h).2.1]
    exact hrow
  events e he := by
    refine ⟨⟨redact e, none⟩, ?_, rfl⟩
    rw [eventRows_addEvents_owned h hown]
    exact List.mem_append_right _ (mem_redactedRows [] he)
  file := by
    rw [(Store.addEvents_eq_ok h).2.2.2]
    exact hfile
  numbers := by
    rw [eventRows_addEvents_owned h hown, List.length_append, length_redactedRows]
    exact hnumbers

/-- The row of a recording with a name is the same for every id that could be made up. -/
theorem asNew_row_eq (hnamed : w.recordingId ≠ "") (hex hex' : String) :
    w.asNew.row hex = w.asNew.row hex' := by
  rw [NewRecording.row, NewRecording.row, chosenId_asNew hnamed, chosenId_asNew hnamed]

/-- A row that fits leaves a store that the database holds. -/
theorem Database.Fits.holds_addRecording (h : db.Fits w) (hnamed : w.recordingId ≠ "")
    (hs : db.holds s = true) {hex : String}
    (hadd : s.addRecording (w.asNew.row hex) = .ok ((), s')) : db.holds s' = true := by
  refine (Database.holds_addRecording_iff hs hadd).mpr ?_
  rw [asNew_row_eq hnamed hex ""]
  exact h.row

/-- So do the rows of the events, once the recording has its own. -/
theorem Database.Fits.holds_addEvents (h : db.Fits w) (hs : db.holds s = true)
    (hown : ∀ e ∈ w.events, e.recordingId = w.recordingId)
    (hrow : (s.recordings.find? w.recordingId).isSome)
    (hadd : s.addEvents (redactedRows w.events []) = .ok ((), s')) : db.holds s' = true := by
  refine (Database.holds_addEvents_iff hs hadd).mpr fun row hmem => ⟨h.rows row hmem, ?_⟩
  obtain ⟨e, he, rfl⟩ := List.mem_map.mp hmem
  obtain ⟨e₀, he₀, rfl⟩ := List.mem_map.mp he
  obtain ⟨row', hrow'⟩ := Option.isSome_iff_exists.mp hrow
  obtain ⟨hmem', hid⟩ := Table.find?_eq_some_iff.mp hrow'
  rw [Database.refers, Bool.or_eq_true, decide_eq_true_eq]
  exact .inr (List.mem_map.mpr ⟨row', hmem', hid.trans (hown e₀ he₀).symm⟩)

end Writes

/-! ### The invariant -/

/-- What an import of `r` may write: a valid recording that fits and has all the events of `r`, and
is `r` itself or apart from it. -/
structure Recording.Copies (db : Database) (r w : Recording) : Prop where
  valid : w.Valid
  fits : db.Fits w
  apart : w = r ∨ w.Apart r
  events : ∃ rename : String → String,
    (∀ id ∈ r.events.map Event.eventId, ∀ id' ∈ r.events.map Event.eventId,
      rename id = rename id' → id = id') ∧
    ∀ e ∈ r.events, ∃ parent,
      { e with
        recordingId := w.recordingId
        eventId := rename e.eventId
        parentEventId := parent } ∈ w.events

/-- A bundle that is stored under its own ids is a copy of itself. -/
theorem Recording.copies_self {db : Database} {r : Recording} (hr : r.Valid) (hfits : db.Fits r) :
    r.Copies db r where
  valid := hr
  fits := hfits
  apart := .inl rfl
  events := by
    refine ⟨id, fun _ _ _ _ h => h, fun e he => ⟨e.parentEventId, ?_⟩⟩
    rw [← hr.owned e he]
    exact he

/-- A bundle that is stored under fresh ids is a copy of it. -/
theorem Recording.copies_rekey {db : Database} {r : Recording} {d : Store} {recordingHex : String}
    {eventHexes : List String} (hr : r.Valid) (hfresh : FreshIds d r recordingHex eventHexes)
    (hfits : db.Fits (rekey recordingHex eventHexes r))
    (hapart : (rekey recordingHex eventHexes r).Apart r) :
    r.Copies db (rekey recordingHex eventHexes r) where
  fits := hfits
  valid :=
    { named := newId_ne "rec" recordingHex
      nodup := nodup_rekey hr.nodup hfresh
      owned := fun e he => by
        obtain ⟨e₀, -, rfl⟩ := List.mem_map.mp he
        rfl }
  apart := .inr hapart
  events := ⟨renameId r.events eventHexes,
    fun _ hid _ hid' h => renameId_inj hr.nodup hfresh.length hfresh.nodup hid hid' h,
    fun _ he => ⟨_, List.mem_map_of_mem he⟩⟩

section Invariant

variable (db : Database) (order : RowOrder) (r w : Recording)

/-- What is true of the store where `finish_recording` stands. -/
def Finisher.Carries (s : Store) : Finisher → Prop
  | .start => s.HasAll db w
  | .hasRow row => row.recordingId = w.recordingId ∧ s.HasAll db w
  | .hasEvents row events | .hasBlob row events _ =>
    row.recordingId = w.recordingId ∧ events = correlate (s.eventsFor order w.recordingId) ∧
      s.HasAll db w
  | .returned recording =>
    recording.recordingId = w.recordingId ∧ (s.recordings.find? w.recordingId).isSome ∧
      (∀ order, s.eventsFor order w.recordingId = recording.events) ∧
      ∀ e ∈ w.events, ∃ n parent,
        { redact e with sequence := n, parentEventId := parent } ∈ recording.events
  | .raised _ => False

/-- What is true of the store where a call stands. -/
def Importer.Carries (s : Store) : Importer → Prop
  | .called _ recordingHex eventHexes =>
    (rekey recordingHex eventHexes r).Apart r ∧ s.HasRoom db (rekey recordingHex eventHexes r)
  | .checked _ recording => s.HasRoom db recording
  | .opened recording =>
    (s.recordings.find? recording.recordingId).isSome ∧
      (∀ e ∈ recording.events, e.eventId ∉ s.events.rows.map EventRow.eventId) ∧
      s.blobs.takesKey (snapshotKey recording.recordingId) = true ∧
      ∀ i < (s.eventRows recording.recordingId).length + recording.events.length,
        db.integer (i : ℤ) = true
  | .finishing recording finisher => finisher.Carries db order recording s

/-- The part of a call in the invariant. -/
def Importer.Inv (s : Store) (a : Importer) : Prop :=
  r.Copies db (a.recording r) ∧ a.Carries db order r s

/-- The id of the bundle is taken, or there is room for it. -/
def Store.TakenOrRoom (s : Store) : Prop :=
  (s.recordings.find? r.recordingId).isSome ∨ s.HasRoom db r

variable {db order r w} {w' : Recording} {s s' : Store}

/-- Where `finish_recording` stands is not disturbed by the writing of another recording. -/
theorem Finisher.Carries.of_writes {f : Finisher} (hf : f.Carries db order w' s)
    (hw : s.Writes w s') (hapart : w'.Apart w) : f.Carries db order w' s' := by
  have hne : w'.recordingId ≠ w.recordingId := hapart.recordingId
  have hfor : ∀ order', s'.eventsFor order' w'.recordingId = s.eventsFor order' w'.recordingId := by
    intro order'
    rw [Store.eventsFor, (hw.untouched _ hne).events, Store.eventsFor]
  -- each stage speaks of the rows of `w'` only, which `w` does not write
  cases f with
  | start => exact Store.HasAll.of_writes hf hw hapart
  | hasRow row => exact ⟨hf.1, hf.2.of_writes hw hapart⟩
  | hasEvents row events => exact ⟨hf.1, by rw [hfor]; exact hf.2.1, hf.2.2.of_writes hw hapart⟩
  | hasBlob row events locator =>
    exact ⟨hf.1, by rw [hfor]; exact hf.2.1, hf.2.2.of_writes hw hapart⟩
  | returned recording =>
    obtain ⟨hid, hrow, hstored, hall⟩ := hf
    refine ⟨hid, ?_, fun order' => by rw [hfor, hstored], hall⟩
    rw [(hw.untouched _ hne).recording]
    exact hrow
  | raised e => exact hf

/-- Where a call stands is not disturbed by a call that writes another recording. -/
theorem Importer.Inv.of_writes {a : Importer} (ha : a.Inv db order r s) (hw : s.Writes w s')
    (hapart : (a.recording r).Apart w) : a.Inv db order r s' := by
  refine ⟨ha.1, ?_⟩
  have hcarries := ha.2
  cases a with
  | called hex recordingHex eventHexes => exact ⟨hcarries.1, hcarries.2.of_writes hw hapart⟩
  | checked hex recording => exact Store.HasRoom.of_writes hcarries hw hapart
  | opened recording =>
    obtain ⟨hrow, hevents, hfile, hnumbers⟩ := hcarries
    have hsame : s'.eventRows recording.recordingId = s.eventRows recording.recordingId :=
      (hw.untouched _ hapart.recordingId).events
    have hkept : s'.recordings.find? recording.recordingId =
        s.recordings.find? recording.recordingId := (hw.untouched _ hapart.recordingId).recording
    refine ⟨by rw [hkept]; exact hrow, fun e he hmem => ?_, hw.files _ hapart.symm.files hfile,
      by rwa [hsame]⟩
    · -- an id that is taken now was taken before, or is one of the other import's own
      rcases hw.eventIds _ hmem with hmem | hmem
      · exact hevents e he hmem
      · exact hapart.events _ (List.mem_map_of_mem he) hmem
  | finishing recording finisher =>
    exact Finisher.Carries.of_writes hcarries hw hapart

/-- A turn of `finish_recording` that writes `w`, on a store that the database holds. -/
theorem Finisher.Carries.step {f f' : Finisher} (hs : db.holds s = true)
    (hf : f.Carries db order w s) (h : f.step order w.recordingId s = some (f', s')) :
    f'.Carries db order w s' ∧ s.Writes w s' ∧ db.holds s' = true := by
  cases f with
  | start =>
    obtain ⟨row, hrow⟩ := Option.isSome_iff_exists.mp hf.recording
    rw [Finisher.step, hrow] at h
    cases h
    exact ⟨⟨(Table.find?_eq_some_iff.mp hrow).2, hf⟩, .refl w s, hs⟩
  | hasRow row =>
    cases h
    exact ⟨⟨hf.1, rfl, hf.2⟩, .refl w s, hs⟩
  | hasEvents row events =>
    obtain ⟨hid, rfl, hall⟩ := hf
    -- the root still takes the file, so the snapshot cannot be refused
    obtain ⟨path, hpath, htakes⟩ := BlobRoot.takesKey_iff.mp hall.file
    obtain ⟨s₁, hput⟩ := Store.exists_putBlob hpath htakes
      (snapshotDoc row (correlate (s.eventsFor order w.recordingId)))
    rw [Finisher.step, hput] at h
    cases h
    have hwrites := Store.writes_putBlob hput
    have hfile := hwrites.files _ (BlobRoot.clearKeys_self _) hall.file
    obtain ⟨-, b, rfl, -⟩ := Store.putBlob_eq_ok hput
    exact ⟨⟨hid, rfl, hall.recording, hall.events, hfile, hall.numbers⟩, hwrites, hs⟩
  | hasBlob row events locator =>
    obtain ⟨hid, rfl, hrow, hall, -, hnumbers⟩ := hf
    cases h
    refine ⟨⟨hid, ?_, fun order' => eventsFor_complete order' locator rfl, fun e he => ?_⟩,
      Store.writes_complete order locator, (Database.holds_complete_iff locator hs).mpr hnumbers⟩
    · rw [Store.find?_complete, Option.isSome_map]
      exact hrow
    · -- what is returned was read before, and the numbering keeps the rest of each event
      obtain ⟨row', hrow', heq⟩ := hall e he
      rw [← heq]
      obtain ⟨hmem, hown⟩ := Store.mem_eventRows.mp hrow'
      exact exists_mem_correlate (Store.mem_eventsFor.mpr ⟨row', hmem, rfl, hown⟩)
  | returned recording => cases h
  | raised e => exact hf.elim

/-- The turn that looks the id of the bundle up: the call keeps its recording, or takes that of the
bundle when its id is free. -/
theorem copies_settled (recordingHex : String) (eventHexes : List String) (hr : r.Valid)
    (hfits : db.Fits r) (hcopies : r.Copies db (rekey recordingHex eventHexes r))
    (hroom : s.HasRoom db (rekey recordingHex eventHexes r)) (hshared : s.TakenOrRoom db r) :
    r.Copies db (settled recordingHex eventHexes s r) ∧
      s.HasRoom db (settled recordingHex eventHexes s r) := by
  rcases settled_eq_or recordingHex eventHexes s r with ⟨-, hsettled⟩ | ⟨hnew, hsettled⟩
  · rw [hsettled]
    exact ⟨hcopies, hroom⟩
  · -- the id is free, so there is room for the bundle
    have hnone : s.recordings.find? r.recordingId = none := Table.find?_eq_none_iff.mpr hnew
    rw [hsettled]
    exact ⟨Recording.copies_self hr hfits, hshared.resolve_left (by simp [hnone])⟩

/-- A transaction of a call keeps its part and fits, and it writes one recording: the one the call
wrote before, or that of the bundle when the call has just found its id free. -/
theorem Importer.Inv.attempt {a a' : Importer} (hr : r.Valid) (hfits : db.Fits r)
    (ha : a.Inv db order r s) (hs : db.holds s = true) (hshared : s.TakenOrRoom db r)
    (h : a.attempt order r s = some (a', s')) :
    a'.Inv db order r s' ∧ s.Writes (a'.recording r) s' ∧ db.holds s' = true ∧
      (a'.recording r = a.recording r ∨ a'.recording r = r ∧
        s.recordings.find? r.recordingId = none ∧
          ∃ hex recordingHex eventHexes, a = .called hex recordingHex eventHexes) := by
  obtain ⟨hcopies, hcarries⟩ := ha
  cases a with
  | called hex recordingHex eventHexes =>
    cases h
    show (r.Copies db (settled recordingHex eventHexes s r) ∧
      s.HasRoom db (settled recordingHex eventHexes s r)) ∧
        s.Writes (settled recordingHex eventHexes s r) s ∧ _
    refine ⟨copies_settled recordingHex eventHexes hr hfits hcopies hcarries.2 hshared,
      .refl _ s, hs, ?_⟩
    · rcases settled_eq_or recordingHex eventHexes s r with ⟨-, hsettled⟩ | ⟨hnew, hsettled⟩
      · exact .inl hsettled
      · exact .inr ⟨hsettled, Table.find?_eq_none_iff.mpr hnew, _, _, _, rfl⟩
  | checked hex w =>
    have hroom : s.HasRoom db w := hcarries
    have hvalid : w.Valid := hcopies.valid
    obtain ⟨s₁, hadd⟩ := hroom.exists_addRecording hvalid.named hex
    have hwrites : s.Writes w s₁ :=
      Store.writes_addRecording hadd (chosenId_asNew hvalid.named hex)
    have hrow : (s₁.recordings.find? w.recordingId).isSome := by
      have hfind := Store.find?_addRecording hadd
      rw [show (w.asNew.row hex).recordingId = w.recordingId from
        chosenId_asNew hvalid.named hex] at hfind
      rw [hfind]
      rfl
    obtain ⟨-, hevents, -, hblobs⟩ := Store.addRecording_eq_ok hadd
    have hs₁ : db.holds s₁ = true := hcopies.fits.holds_addRecording hvalid.named hs hadd
    have hnumbers : ∀ i < (s₁.eventRows w.recordingId).length + w.events.length,
        db.integer (i : ℤ) = true := by
      rw [Store.eventRows, hevents]
      exact hroom.numbers
    have hfile : s₁.blobs.takesKey (snapshotKey w.recordingId) = true := by
      rw [hblobs]
      exact hroom.file
    rw [Importer.attempt, hadd] at h
    -- the insert of no events is no step
    by_cases hnil : w.events = []
    · simp only [hnil, if_true] at h
      cases h
      rw [hnil, List.length_nil, Nat.add_zero] at hnumbers
      exact ⟨⟨hcopies, hrow, by simp [hnil], hfile, hnumbers⟩, hwrites, hs₁, .inl rfl⟩
    · simp only [hnil, if_false] at h
      cases h
      exact ⟨⟨hcopies, hrow, by rw [hevents]; exact hroom.events, hfile, hnumbers⟩, hwrites, hs₁,
        .inl rfl⟩
  | opened w =>
    have hvalid : w.Valid := hcopies.valid
    obtain ⟨hrow, hevents, hfile, hnumbers⟩ := hcarries
    obtain ⟨s₁, hadd⟩ := Store.exists_addEvents_redacted hvalid.nodup hevents
    rw [Importer.attempt, hadd] at h
    cases h
    exact ⟨⟨hcopies, Store.hasAll_of_addEvents hvalid.owned hrow hfile hnumbers hadd⟩,
      Store.writes_addEvents hvalid.owned hadd,
      hcopies.fits.holds_addEvents hs hvalid.owned hrow hadd, .inl rfl⟩
  | finishing w f =>
    obtain ⟨⟨f', s₁⟩, hfinisher, heq⟩ := Option.map_eq_some_iff.mp h
    cases heq
    obtain ⟨hf', hwrites, hs'⟩ := Finisher.Carries.step hs hcarries hfinisher
    exact ⟨⟨hcopies, hf'⟩, hwrites, hs', .inl rfl⟩

/-- So it is not refused. -/
theorem Importer.Inv.step {a a' : Importer} (hr : r.Valid) (hfits : db.Fits r)
    (ha : a.Inv db order r s) (hs : db.holds s = true) (hshared : s.TakenOrRoom db r)
    (h : a.step db order r s = some (a', s')) :
    a'.Inv db order r s' ∧ s.Writes (a'.recording r) s' ∧ db.holds s' = true ∧
      (a'.recording r = a.recording r ∨ a'.recording r = r ∧
        s.recordings.find? r.recordingId = none ∧
          ∃ hex recordingHex eventHexes, a = .called hex recordingHex eventHexes) := by
  obtain ⟨⟨a₁, s₁⟩, hattempt, heq⟩ := Option.map_eq_some_iff.mp h
  have hkept := ha.attempt hr hfits hs hshared hattempt
  rw [Database.refuses_eq_none_iff.mpr hkept.2.2.1] at heq
  cases heq
  exact hkept

/-- A call whose recording has the id of the bundle has inserted its row, or is about to. -/
theorem Importer.Inv.isSome_or_isChecked {a : Importer} (ha : a.Inv db order r s)
    (hrec : a.recording r = r) :
    (s.recordings.find? r.recordingId).isSome ∨ a.isChecked = true := by
  have hcarries := ha.2
  cases a with
  | called hex recordingHex eventHexes =>
    -- the copy that a call would store has another id
    exact absurd (congrArg Recording.recordingId hrec) hcarries.1.recordingId
  | checked hex w => exact .inr rfl
  | opened w =>
    obtain rfl : w = r := hrec
    exact .inl hcarries.1
  | finishing w f =>
    obtain rfl : w = r := hrec
    left
    -- from the insertion of the row on, the row is there
    cases f with
    | start => exact hcarries.recording
    | hasRow row => exact hcarries.2.recording
    | hasEvents row events => exact hcarries.2.2.recording
    | hasBlob row events locator => exact hcarries.2.2.recording
    | returned recording => exact hcarries.2.1
    | raised e => exact hcarries.elim

/-- A turn of a call leaves the bundle taken, or room for it. -/
theorem Importer.Inv.takenOrRoom {a : Importer} (ha : a.Inv db order r s')
    (hshared : s.TakenOrRoom db r) (hw : s.Writes (a.recording r) s') : s'.TakenOrRoom db r := by
  rcases ha.1.apart with hrec | hapart
  · rcases ha.isSome_or_isChecked hrec with hsome | hchecked
    · exact .inl hsome
    · cases a with
      | checked hex w =>
        obtain rfl : w = r := hrec
        exact .inr ha.2
      | _ => cases hchecked
  · unfold Store.TakenOrRoom at hshared ⊢
    rw [(hw.untouched _ hapart.symm.recordingId).recording]
    exact hshared.imp_right fun hroom => hroom.of_writes hw hapart.symm

/-- The invariant of the runs in which no check is crowded. -/
abbrev Imports.Inv (db : Database) (order : RowOrder) (r : Recording) (c : Imports) : Prop :=
  Pool.Inv (fun s => db.holds s = true ∧ s.TakenOrRoom db r) (Importer.Inv db order r)
    (fun a b => (a.recording r).Apart (b.recording r)) c

/-- A turn that is not crowded keeps the invariant. -/
theorem Imports.Inv.step {c c' : Imports} {i : ℕ} (hr : r.Valid) (hfits : db.Fits r)
    (hc : Imports.Inv db order r c) (hcalm : crowded r c i = false)
    (h : c.step (Importer.step db order r) i = some c') : Imports.Inv db order r c' := by
  refine Pool.Inv.step hc (fun _ _ h => h.symm) h fun a a' s' hget hnext => ?_
  have ha : a.Inv db order r c.state := hc.own a (List.mem_of_getElem? hget)
  obtain ⟨ha', hwrites, hs', hsame⟩ := ha.step hr hfits hc.shared.1 hc.shared.2 hnext
  -- what is left is that the turn writes nothing of what the other calls rely on
  refine ⟨⟨hs', ha'.takenOrRoom hc.shared.2 hwrites⟩, ha', fun b hb hapart hmem => ?_⟩
  have hapart' : (a'.recording r).Apart (b.recording r) := by
    rcases hsame with hsame | ⟨hrec, hnone, _, _, _, rfl⟩
    · rw [hsame]
      exact hapart
    · -- the call keeps the id of the bundle; no other call has it
      rw [hrec]
      refine (hb.1.apart.resolve_left fun hrec' => ?_).symm
      rcases hb.isSome_or_isChecked hrec' with hsome | hchecked
      · simp [hnone] at hsome
      · simp only [crowded, hget, hnone, Option.isNone_none, Bool.true_and] at hcalm
        exact absurd hchecked (by simpa using List.any_eq_false.mp hcalm b hmem)
  exact ⟨hb.of_writes hwrites hapart'.symm, hapart'⟩

/-- The invariant holds before the first import begins. -/
theorem Imports.Starting.inv {c : Imports} (hc : c.Starting db r) : Imports.Inv db order r c where
  shared := ⟨hc.holds, hc.store⟩
  own a ha := by
    obtain ⟨hex, recordingHex, eventHexes, rfl, hfresh, hfits, hroom, hapart⟩ := hc.called a ha
    exact ⟨Recording.copies_rekey hc.valid hfresh hfits hapart, hapart, hroom⟩
  apart := hc.apart

/-- A call under the invariant has returned or can go on. -/
theorem Importer.Inv.isSome_step {a : Importer} (ha : a.Inv db order r s) (order' : RowOrder)
    (h : a.returned = none) : (a.step db order' r s).isSome := by
  rw [Importer.step, Option.isSome_map]
  cases a with
  | called hex recordingHex eventHexes => rfl
  | checked hex w =>
    rw [Importer.attempt]
    cases s.addRecording (w.asNew.row hex) <;> rfl
  | opened w =>
    rw [Importer.attempt]
    cases s.addEvents (redactedRows w.events []) <;> rfl
  | finishing w f =>
    rw [Importer.attempt, Option.isSome_map]
    cases f with
    | start =>
      rw [Finisher.step]
      cases s.recordings.find? w.recordingId <;> rfl
    | hasRow row => rfl
    | hasEvents row events =>
      rw [Finisher.step]
      rcases s.putBlob (snapshotKey w.recordingId) (snapshotDoc row events) with ⟨e | path, s'⟩ <;>
        rfl
    | hasBlob row events locator => rfl
    | returned recording => cases h
    -- under the invariant `finish_recording` has not raised
    | raised e => exact ha.2.elim

/-- What a call under the invariant has returned. -/
theorem Importer.Inv.returned {a : Importer} (ha : a.Inv db order r s) {r' : Recording}
    (h : r' ∈ a.returned) :
    r'.recordingId = (a.recording r).recordingId ∧ r.HoldsAll r' ∧
      ∀ order, s.eventsFor order r'.recordingId = r'.events := by
  cases a with
  | finishing w f =>
    cases f with
    | returned recording =>
      obtain rfl : recording = r' := Option.some.inj h
      obtain ⟨hcopies, hid, -, hstored, hall⟩ := ha
      obtain ⟨rename, hinj, hevents⟩ := hcopies.events
      refine ⟨hid, ⟨rename, hinj, fun e he => ?_⟩, fun order' => by rw [hid, hstored]⟩
      -- from the bundle to the copy, and from the copy to what was read back
      obtain ⟨parent, hmem⟩ := hevents e he
      obtain ⟨n, parent', hmem'⟩ := hall _ hmem
      refine ⟨n, parent', ?_⟩
      rw [hid]
      exact hmem'
    | _ => cases h
  | _ => cases h

/-- Under the invariant the calls succeed. -/
theorem Imports.Inv.succeeds {c : Imports} (hc : Imports.Inv db order r c) : c.Succeeds db r where
  unraised w e hmem := (hc.own _ hmem).2
  moves order' i a hget hnone := by
    have hstep := (hc.own a (List.mem_of_getElem? hget)).isSome_step order' hnone
    rw [Pool.step, hget, Option.bind_some, Option.isSome_map]
    exact hstep
  own := by
    refine hc.apart.imp_of_mem fun {a b} ha hb hapart r₁ hr₁ r₂ hr₂ => ?_
    rw [((hc.own a ha).returned hr₁).1, ((hc.own b hb).returned hr₂).1]
    exact hapart.recordingId
  whole a ha r' hr' := ((hc.own a ha).returned hr').2

end Invariant

/-! ### Runs -/

/-- Each step of a finisher brings it nearer to its end. -/
theorem Finisher.stepsLeft_step {order : RowOrder} {recordingId : String} {s s' : Store}
    {f f' : Finisher} (h : f.step order recordingId s = some (f', s')) :
    f'.stepsLeft < f.stepsLeft := by
  cases f with
  | start =>
    rw [Finisher.step] at h
    split at h
    · cases h
      simp [stepsLeft]
    · cases h
      simp [stepsLeft]
  | hasRow row =>
    cases h
    exact Nat.lt_succ_self _
  | hasEvents row events =>
    rw [Finisher.step] at h
    split at h
    · cases h
      simp [stepsLeft]
    · cases h
      simp [stepsLeft]
  | hasBlob row events locator =>
    cases h
    exact Nat.lt_succ_self _
  | returned recording => cases h
  | raised e => cases h

/-- So does each step of an importer, failing ones included. -/
theorem Importer.stepsLeft_attempt {order : RowOrder} {r : Recording} {s s' : Store}
    {a a' : Importer} (h : a.attempt order r s = some (a', s')) : a'.stepsLeft < a.stepsLeft := by
  cases a with
  | called hex recordingHex eventHexes =>
    cases h
    exact Nat.lt_succ_self _
  | checked hex w =>
    rw [Importer.attempt] at h
    split at h
    · -- a bundle without events is finished at once
      cases h
      split_ifs <;> simp [stepsLeft, Finisher.stepsLeft]
    · cases h
      simp [stepsLeft, Finisher.stepsLeft]
  | opened w =>
    rw [Importer.attempt] at h
    split at h
    · cases h
      simp [stepsLeft, Finisher.stepsLeft]
    · cases h
      simp [stepsLeft, Finisher.stepsLeft]
  | finishing w f =>
    obtain ⟨⟨f', s₁⟩, hfinisher, heq⟩ := Option.map_eq_some_iff.mp h
    cases heq
    exact Finisher.stepsLeft_step hfinisher

/-- Every turn brings a call closer to its end. -/
theorem Importer.stepsLeft_step {db : Database} {order : RowOrder} {r : Recording} {s s' : Store}
    {a a' : Importer} (h : a.step db order r s = some (a', s')) : a'.stepsLeft < a.stepsLeft := by
  obtain ⟨⟨a₁, s₁⟩, hattempt, heq⟩ := Option.map_eq_some_iff.mp h
  have hless := stepsLeft_attempt hattempt
  cases hrefuses : db.refuses 0 s s₁ with
  | none =>
    rw [hrefuses] at heq
    cases heq
    exact hless
  | some e =>
    -- a call that is refused is over
    rw [hrefuses] at heq
    cases heq
    exact Nat.zero_lt_of_lt hless

/-- There is no endless run: the calls take at most seven steps each. -/
theorem Imports.Starting.length_run_le {db : Database} {order : RowOrder} {r : Recording}
    {c c' : Imports} {turns : List ℕ} (hstart : c.Starting db r)
    (hrun : Machine.run (Pool.step (Importer.step db order r)) c turns = some c') :
    turns.length ≤ 7 * c.tasks.length := by
  have hlength : turns.length ≤ (c.tasks.map Importer.stepsLeft).sum :=
    Pool.length_run_le (fun _ _ _ _ h => Importer.stepsLeft_step h) hrun
  have hsevens : c.tasks.map Importer.stepsLeft = List.replicate c.tasks.length 7 := by
    refine List.map_eq_replicate_iff.mpr fun a ha => ?_
    obtain ⟨_, _, _, rfl, -⟩ := hstart.called a ha
    rfl
  rw [hsevens, List.sum_replicate_nat] at hlength
  omega

/-- **Imports at the same time.** When no call makes its check while the id is free and another
call stands between its own check and its insert, no call refuses another, and after at most seven
steps each all have returned. -/
theorem succeeds_of_uncrowded {db : Database} {order : RowOrder} {r : Recording} {c c' : Imports}
    {turns : List ℕ} (hstart : c.Starting db r)
    (hcalm : Machine.Along (Pool.step (Importer.step db order r))
      (fun c i => crowded r c i = false) c turns)
    (hrun : Machine.run (Pool.step (Importer.step db order r)) c turns = some c') :
    c'.Succeeds db r ∧ turns.length ≤ 7 * c.tasks.length := by
  have hinv : Imports.Inv db order r c' := Machine.invariant
    (fun _ _ _ hc hcalm h => hc.step hstart.valid hstart.fits hcalm h) hstart.inv hcalm hrun
  exact ⟨hinv.succeeds, hstart.length_run_le hrun⟩

/-- A bundle of one request. -/
def plainBundle : Recording where
  recordingId := "rec_1"
  events := [.brief .httpRequest "evt_1" "corr_1" 0]

/-- Two calls that import it into the empty store. -/
def twoImports : Imports where
  state := .empty
  tasks := [.called "" "a" ["a"], .called "" "b" ["b"]]

/-- In an empty store every id is fresh. -/
theorem freshIds_plainBundle (recordingHex eventHex : String) :
    FreshIds Store.empty plainBundle recordingHex [eventHex] where
  recording := by
    rintro (hmem | hmem) <;> cases hmem
  length := rfl
  nodup := List.nodup_singleton _
  events _ _ hmem := by cases hmem

/-- Two imports of one bundle into an empty PostgreSQL store. -/
theorem starting_twoImports : twoImports.Starting .postgres plainBundle where
  valid := ⟨by decide, by decide, by decide⟩
  fits := ⟨by decide, by decide⟩
  holds := by decide
  store := .inr ⟨rfl, (fun _ _ hmem => by cases hmem), by decide, by decide⟩
  called a ha := by
    have hcases : a = .called "" "a" ["a"] ∨ a = .called "" "b" ["b"] := by
      simpa [twoImports] using ha
    rcases hcases with rfl | rfl
    · exact ⟨_, _, _, rfl, freshIds_plainBundle _ _, ⟨by decide, by decide⟩,
        ⟨rfl, (fun _ _ hmem => by cases hmem), by decide, by decide⟩,
        ⟨by decide, by decide, by decide⟩⟩
    · exact ⟨_, _, _, rfl, freshIds_plainBundle _ _, ⟨by decide, by decide⟩,
        ⟨rfl, (fun _ _ hmem => by cases hmem), by decide, by decide⟩,
        ⟨by decide, by decide, by decide⟩⟩
  apart := by
    refine List.pairwise_pair.mpr ⟨by decide, by decide, by decide⟩

/-- The second call checks when the row of the first is in. -/
theorem succeeds_of_uncrowded_two :
    ∃ c', Machine.run (Pool.step (Importer.step .postgres .bySequence plainBundle)) twoImports
        [0, 0, 1, 0, 1, 1, 0, 0, 1, 0, 1, 0, 1, 1] = some c' ∧
      Imports.Succeeds .postgres plainBundle c' ∧ 14 ≤ 7 * 2 := by
  obtain ⟨c', hrun⟩ := Option.isSome_iff_exists.mp
    (by decide : (Machine.run (Pool.step (Importer.step .postgres .bySequence plainBundle))
      twoImports [0, 0, 1, 0, 1, 1, 0, 0, 1, 0, 1, 0, 1, 1]).isSome)
  exact ⟨c', hrun, succeeds_of_uncrowded starting_twoImports (by decide) hrun⟩

/-- Two calls that check before either has inserted its row: the second is refused. -/
theorem not_succeeds_crowded :
    ¬∀ (db : Database) (order : RowOrder) (r : Recording) (c c' : Imports) (turns : List ℕ),
      c.Starting db r → Machine.run (Pool.step (Importer.step db order r)) c turns = some c' →
        Imports.Succeeds db r c' := by
  intro h
  have hrun : ∃ s a, Machine.run (Pool.step (Importer.step .postgres .bySequence plainBundle))
      twoImports [0, 1, 0, 1] = some ⟨s, [a, .finishing plainBundle (.raised .integrity)]⟩ :=
    ⟨_, _, rfl⟩
  obtain ⟨s, a, hrun⟩ := hrun
  exact (h _ _ _ _ _ _ starting_twoImports hrun).unraised plainBundle .integrity (by simp)

end InfraReplay
