import InfraReplay.Python.JsonMode
import InfraReplay.Recording.Service

/-!
# What the columns of a database take

The rows are stored in columns of the types `Integer`, `BigInteger`, `String(n)` and `JSON`. What a
type takes, and whether foreign keys are checked, is up to the database: PostgreSQL refuses an
`Integer` beyond 32 bits and a text that is too long, SQLite an integer beyond 64 bits. A database
that works refuses a write exactly when it would be left with a row it cannot hold
(`Database.refuses`).

The columns for the status, the kind and the event type hold the values of enumerations and always
fit, and so does the blob locator, which is a `Text`. The comparison table plays no part here.
-/

namespace InfraReplay

/-- What the column types take, and whether a foreign key must name a row. -/
structure Database where
  integer : ℤ → Bool
  bigInteger : ℤ → Bool
  /-- `String(n)`. -/
  string : ℕ → String → Bool
  json : Python.Payload → Bool
  foreignKeys : Bool

namespace Database

/-- PostgreSQL. A text without the character `NUL` fits when it is short enough, and `NaN` is no
JSON. -/
def postgres : Database where
  integer i := decide (-2 ^ 31 ≤ i) && decide (i < 2 ^ 31)
  bigInteger i := decide (-2 ^ 63 ≤ i) && decide (i < 2 ^ 63)
  string n s := decide (s.length ≤ n) && s.toList.all fun c => decide (c ≠ '\x00')
  json payload := payload.isFinite
  foreignKeys := true

variable (db : Database)

/-- A nullable `String(n)`. -/
def optional (n : ℕ) (s : Option String) : Bool := s.all (db.string n)

/-- The columns of `RecordingRow`. -/
def takesRecording (row : RecordingRow) : Bool :=
  db.string 64 row.recordingId && db.string 128 row.project && db.string 256 row.title &&
    db.string 64 row.capturePlugin && db.optional 64 row.sourceRecordingId &&
    db.optional 512 row.target

/-- The columns of `EventRow`. -/
def takesEvent (row : EventRow) : Bool :=
  db.string 64 row.event.eventId && db.string 64 row.event.recordingId &&
    db.optional 64 row.event.parentEventId && db.optional 64 row.sourceEventId &&
    db.integer row.event.schemaVersion && db.integer row.event.sequence &&
    db.bigInteger row.event.timestampNs && db.bigInteger row.event.durationNs &&
    db.string 128 row.event.service && db.string 64 row.event.correlationId &&
    db.optional 64 row.event.traceId && db.optional 64 row.event.spanId &&
    db.json row.event.payload

/-- The foreign key of an event row, if it is checked. -/
def refers (s : Store) (row : EventRow) : Bool :=
  !db.foreignKeys ||
    decide (row.event.recordingId ∈ s.recordings.rows.map RecordingRow.recordingId)

/-- Every row of the store fits. -/
def holds (s : Store) : Bool :=
  s.recordings.rows.all db.takesRecording && s.events.rows.all db.takesEvent &&
    s.events.rows.all (db.refers s)

/-- What the steps of a task raise when the storage works: a write that does not fit is refused. -/
def refuses : ℕ → Store → Store → Option Error := fun _ _ s' =>
  if db.holds s' then none else some (.databaseError "value out of range")

/-- Whatever else fails, a write that the database cannot hold is refused. -/
def Guards (refuses : ℕ → Store → Store → Option Error) : Prop :=
  ∀ n s s', refuses n s s' = none → db.holds s' = true

variable {db} {s s' : Store} {order : RowOrder} {recordingId : String}

theorem holds_iff : db.holds s = true ↔
    (∀ row ∈ s.recordings.rows, db.takesRecording row = true) ∧
      (∀ row ∈ s.events.rows, db.takesEvent row = true) ∧
        ∀ row ∈ s.events.rows, db.refers s row = true := by
  rw [holds, Bool.and_eq_true, Bool.and_eq_true, List.all_eq_true, List.all_eq_true,
    List.all_eq_true, and_assoc]

theorem refuses_eq_none_iff {n : ℕ} : db.refuses n s s' = none ↔ db.holds s' = true := by
  unfold refuses
  split_ifs with h <;> simp [h]

theorem guards_refuses (db : Database) : db.Guards db.refuses :=
  fun _ _ _ h => refuses_eq_none_iff.mp h

/-- A foreign key that names a row still does when there are more rows. -/
theorem refers_mono (h : ∀ id ∈ s.recordings.rows.map RecordingRow.recordingId,
    id ∈ s'.recordings.rows.map RecordingRow.recordingId) {row : EventRow}
    (hrow : db.refers s row = true) : db.refers s' row = true := by
  unfold refers at hrow ⊢
  rw [Bool.or_eq_true, decide_eq_true_eq] at hrow ⊢
  exact hrow.imp_right (h _)

/-- A recording row can be added when its columns take it. -/
theorem holds_addRecording_iff {row : RecordingRow} {u : Unit} (hs : db.holds s = true)
    (h : s.addRecording row = .ok (u, s')) :
    db.holds s' = true ↔ db.takesRecording row = true := by
  obtain ⟨hrecordings, hevents, hrefers⟩ := holds_iff.mp hs
  obtain ⟨hrows, hkept, -, -⟩ := Store.addRecording_eq_ok h
  rw [holds_iff, hrows, hkept]
  constructor
  · exact fun hs' => hs'.1 row (by simp)
  · intro hrow
    refine ⟨fun row' hrow' => ?_, hevents, fun row' hrow' => ?_⟩
    · rcases List.mem_append.mp hrow' with hrow' | hrow'
      · exact hrecordings row' hrow'
      · rwa [List.mem_singleton.mp hrow']
    · refine refers_mono (fun id hid => ?_) (hrefers row' hrow')
      rw [hrows, List.map_append]
      exact List.mem_append_left _ hid

/-- Event rows can be added when their columns take them and their recordings exist. -/
theorem holds_addEvents_iff {rows : List EventRow} {u : Unit} (hs : db.holds s = true)
    (h : s.addEvents rows = .ok (u, s')) :
    db.holds s' = true ↔ ∀ row ∈ rows, db.takesEvent row = true ∧ db.refers s row = true := by
  obtain ⟨hrecordings, hevents, hrefers⟩ := holds_iff.mp hs
  obtain ⟨hrows, hkept, -, -⟩ := Store.addEvents_eq_ok h
  have hsame : ∀ row, db.refers s' row = db.refers s row := by
    intro row
    unfold refers
    rw [hkept]
  rw [holds_iff, hrows, hkept]
  simp only [hsame, List.mem_append]
  constructor
  · exact fun hs' row hrow => ⟨hs'.2.1 row (.inr hrow), hs'.2.2 row (.inr hrow)⟩
  · intro hnew
    exact ⟨hrecordings, fun row hrow => hrow.elim (hevents row) fun hrow => (hnew row hrow).1,
      fun row hrow => hrow.elim (hrefers row) fun hrow => (hnew row hrow).2⟩

/-- The columns of a row at a new place under a new parent. -/
theorem takesEvent_placed {row : EventRow} {e : Event} (hrow : db.takesEvent row = true)
    (hsequence : db.integer e.sequence = true) (hparent : db.optional 64 e.parentEventId = true) :
    db.takesEvent (Store.placed e row) = true := by
  simp only [takesEvent, Store.placed, Bool.and_eq_true] at hrow ⊢
  tauto

/-- The columns that finishing reads and writes. -/
theorem takesEvent_columns {row : EventRow} (h : db.takesEvent row = true) :
    db.string 64 row.event.eventId = true ∧ db.optional 64 row.event.parentEventId = true ∧
      db.integer row.event.sequence = true := by
  simp only [takesEvent, Bool.and_eq_true] at h
  tauto

/-- The numbers that `finish_recording` writes. -/
theorem map_sequence_read (order : RowOrder) (recordingId : String) (s : Store) :
    (correlate (s.eventsFor order recordingId)).map Event.sequence =
      (List.range (s.eventRows recordingId).length).map fun i : ℕ => (i : ℤ) := by
  rw [map_sequence_correlate, Store.length_eventsFor]

/-- The parents that `finish_recording` writes were in the columns before. -/
theorem optional_parent_read (hs : db.holds s = true) {e : Event}
    (he : e ∈ correlate (s.eventsFor order recordingId)) :
    db.optional 64 e.parentEventId = true := by
  refine forall_parent_correlate (P := fun o => db.optional 64 o = true) rfl (fun e he => ?_) e he
  obtain ⟨row, hrow, rfl, -⟩ := Store.mem_eventsFor.mp he
  obtain ⟨hid, hparent, -⟩ := takesEvent_columns ((holds_iff.mp hs).2.1 row hrow)
  exact ⟨hid, hparent⟩

/-- The commit of `finish_recording` leaves the ids of the recordings alone. -/
theorem map_recordingId_complete (recordingId : String) (events : List Event)
    (locator : List String) (s : Store) :
    (s.complete recordingId events locator).recordings.rows.map RecordingRow.recordingId =
      s.recordings.rows.map RecordingRow.recordingId := by
  rw [Store.rows_complete, List.map_map]
  refine List.map_congr_left fun row _ => ?_
  simp only [Function.comp_apply]
  split_ifs <;> rfl

/-- Files are no rows. -/
theorem holds_putBlob (key : String) (document : Python.Value) (s : Store) :
    db.holds (s.putBlob key document).2 = db.holds s := rfl

/-- The commit of `finish_recording` fits when the sequence column takes the new numbers. -/
theorem holds_complete_iff (locator : List String) (hs : db.holds s = true) :
    db.holds (s.complete recordingId (correlate (s.eventsFor order recordingId)) locator) = true ↔
      ∀ i < (s.eventRows recordingId).length, db.integer (i : ℤ) = true := by
  let events := correlate (s.eventsFor order recordingId)
  have hnumbers : events.map Event.sequence = _ := map_sequence_read order recordingId s
  obtain ⟨hrecordings, hevents, hrefers⟩ := holds_iff.mp hs
  constructor
  · intro hs' i hi
    -- the event that gets the number `i` is stored with it
    have hmem : (i : ℤ) ∈ events.map Event.sequence := by
      rw [hnumbers]
      exact List.mem_map_of_mem (f := fun i : ℕ => (i : ℤ)) (List.mem_range.mpr hi)
    obtain ⟨e, he, hseq⟩ := List.mem_map.mp hmem
    have hperm := map_event_eventRows_complete locator (rfl : events = _)
    have hstored := hperm.mem_iff.mpr he
    obtain ⟨row', hrow', rfl⟩ := List.mem_map.mp hstored
    have htakes := (holds_iff.mp hs').2.1 row' (Store.mem_eventRows.mp hrow').1
    rw [← hseq]
    exact (takesEvent_columns htakes).2.2
  · intro hinteger
    have hnd : (events.map Event.eventId).Nodup :=
      (map_eventId_correlate_perm _).nodup_iff.mpr (Store.nodup_eventsFor order _ s)
    have hrows : (s.complete recordingId events locator).events.rows = _ :=
      Store.rows_placeEvents hnd s
    rw [holds_iff, hrows]
    refine ⟨fun row' hrow' => ?_, fun row' hrow' => ?_, fun row' hrow' => ?_⟩
    · -- neither the status nor the locator is checked
      rw [Store.rows_complete] at hrow'
      obtain ⟨row₀, hrow₀, rfl⟩ := List.mem_map.mp hrow'
      have htakes := hrecordings row₀ hrow₀
      split_ifs <;> exact htakes
    · obtain ⟨row₀, hrow₀, rfl⟩ := List.mem_map.mp hrow'
      cases hfind : events.find? fun e => e.eventId = row₀.eventId with
      | none => exact hevents row₀ hrow₀
      | some e =>
        have he := List.mem_of_find?_eq_some hfind
        refine takesEvent_placed (hevents row₀ hrow₀) ?_ (optional_parent_read hs he)
        have hmem : e.sequence ∈ events.map Event.sequence := List.mem_map_of_mem he
        rw [hnumbers] at hmem
        obtain ⟨i, hi, heq⟩ := List.mem_map.mp hmem
        rw [← heq]
        exact hinteger i (List.mem_range.mp hi)
    · obtain ⟨row₀, hrow₀, rfl⟩ := List.mem_map.mp hrow'
      have hkept : db.refers (s.complete recordingId events locator) row₀ = true :=
        refers_mono (fun id hid => by rwa [map_recordingId_complete]) (hrefers row₀ hrow₀)
      cases events.find? fun e => e.eventId = row₀.eventId <;> exact hkept

/-- So does a finishing with its snapshot. -/
theorem holds_finished_iff {row : RecordingRow} {path : List String} (hs : db.holds s = true)
    (hrow : row.recordingId = recordingId) :
    db.holds (s.finished row (correlate (s.eventsFor order recordingId)) path) = true ↔
      ∀ i < (s.eventRows recordingId).length, db.integer (i : ℤ) = true := by
  subst hrow
  have hput := @holds_complete_iff db _ order row.recordingId path
    ((holds_putBlob (snapshotKey row.recordingId)
      (snapshotDoc row (correlate (s.eventsFor order row.recordingId))) s).trans hs)
  rwa [Store.eventsFor_putBlob] at hput

end Database

end InfraReplay
