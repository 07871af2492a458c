import InfraReplay.Common.Sort
import InfraReplay.Common.Table
import InfraReplay.Plugins.BlobRoot
import InfraReplay.Schema

/-!
# The metadata store and the blob root

The rows of the three tables and the snapshot files, and the transactions the recording service
runs on them. A transaction is a function on the store that either raises and changes nothing or
returns a value and the new store; writing a file is none (`putBlob`). The creation time of a row is
not modelled.

A query orders rows by sequence number only, so the order of rows with equal numbers is up to the
database: `RowOrder` is any such order.
-/

namespace InfraReplay

open Python

/-! ### Rows -/

/-- `RecordingRow`. -/
structure RecordingRow where
  recordingId : String
  project : String := "default"
  kind : RecordingKind
  status : RecordingStatus
  title : String := ""
  capturePlugin : String := ""
  sourceRecordingId : Option String := none
  target : Option String := none
  /-- The snapshot file, as its path below the blob root. -/
  blobLocator : Option (List String) := none

/-- `EventRow`: the columns of an event, and the original event that a replayed one reproduces. -/
structure EventRow where
  event : Event
  sourceEventId : Option String := none

/-- The primary key of an event row. -/
def EventRow.eventId (row : EventRow) : String := row.event.eventId

/-- The four things the service writes. -/
structure Store where
  recordings : Table RecordingRow.recordingId
  events : Table EventRow.eventId
  /-- `comparison_results`, in the order of the ids. -/
  comparisons : List ComparisonResult
  /-- The files below the blob root, each with a JSON document. -/
  blobs : BlobRoot

/-- The store `init_db` creates. -/
def Store.empty : Store where
  recordings := .empty _
  events := .empty _
  comparisons := []
  blobs := .empty

/-- A store that holds one recording and nothing else. -/
def Store.withRecording (row : RecordingRow) : Store where
  recordings := ⟨[row], by simp⟩
  events := .empty _
  comparisons := []
  blobs := .empty

/-- An order of rows by sequence number. -/
structure RowOrder where
  rows : List EventRow → List EventRow
  perm : ∀ l, (rows l).Perm l
  sorted : ∀ l, (rows l).Pairwise fun r r' => r.event.sequence ≤ r'.event.sequence

/-- Rows with equal numbers in insertion order. -/
def RowOrder.bySequence : RowOrder where
  rows := List.sortBy fun row => row.event.sequence
  perm l := List.sortBy_perm _ l
  sorted l := List.sortBy_pairwise _ l

/-- Rows with equal numbers in the reverse of the insertion order. -/
def RowOrder.latestFirst : RowOrder where
  rows l := l.reverse.sortBy fun row => row.event.sequence
  perm l := (List.sortBy_perm _ _).trans l.reverse_perm
  sorted _ := List.sortBy_pairwise _ _

/-- The order of rows with equal numbers does not depend on what else is in them. -/
def RowOrder.Uniform (order : RowOrder) : Prop :=
  ∀ f : EventRow → EventRow, (∀ row, (f row).event.sequence = row.event.sequence) →
    ∀ l, order.rows (l.map f) = (order.rows l).map f

/-- Ordering by the sequence numbers, with ties as they were inserted, does not look at ids. -/
theorem RowOrder.bySequence_uniform : RowOrder.bySequence.Uniform := by
  intro f hf l
  show (l.map f).sortBy _ = (l.sortBy _).map f
  rw [List.sortBy_map]
  simp only [hf]

/-- Nor does the reverse order. -/
theorem RowOrder.latestFirst_uniform : RowOrder.latestFirst.Uniform := by
  intro f hf l
  show (l.map f).reverse.sortBy _ = (l.reverse.sortBy _).map f
  rw [← List.map_reverse, List.sortBy_map]
  simp only [hf]

/-! ### Transactions -/

namespace Store

/-- The event rows of a recording, in insertion order. -/
def eventRows (s : Store) (recordingId : String) : List EventRow :=
  s.events.rows.filter fun row => row.event.recordingId = recordingId

/-- The recording is open. -/
def Open (s : Store) (recordingId : String) : Prop :=
  ∃ row, s.recordings.find? recordingId = some row ∧ row.status = .recording

/-- `_events_for`. -/
def eventsFor (order : RowOrder) (recordingId : String) (s : Store) : List Event :=
  (order.rows (s.eventRows recordingId)).map EventRow.event

/-- Insert one recording row. -/
def addRecording (row : RecordingRow) (s : Store) : Except Error (Unit × Store) :=
  match s.recordings.addAll [row] with
  | some recordings => .ok ((), { s with recordings := recordings })
  | none => .error .integrity

/-- Insert event rows, all or none. -/
def addEvents (rows : List EventRow) (s : Store) : Except Error (Unit × Store) :=
  match s.events.addAll rows with
  | some events => .ok ((), { s with events := events })
  | none => .error .integrity

/-- Change one recording row. -/
def setRecording (recordingId : String) (f : RecordingRow → RecordingRow)
    (hf : ∀ row, (f row).recordingId = row.recordingId) (s : Store) : Store :=
  { s with
    recordings := s.recordings.modify
      (fun row => if row.recordingId = recordingId then f row else row)
      (fun row => by split_ifs <;> simp [hf]) }

/-- Change one event row. -/
def setEvent (eventId : String) (f : EventRow → EventRow)
    (hf : ∀ row, (f row).eventId = row.eventId) (s : Store) : Store :=
  { s with
    events := s.events.modify (fun row => if row.eventId = eventId then f row else row)
      (fun row => by split_ifs <;> simp [hf]) }

@[simp]
theorem rows_setRecording (f : RecordingRow → RecordingRow)
    (hf : ∀ row, (f row).recordingId = row.recordingId) (recordingId : String) (s : Store) :
    (s.setRecording recordingId f hf).recordings.rows =
      s.recordings.rows.map fun row => if row.recordingId = recordingId then f row else row := rfl

@[simp]
theorem rows_setEvent (f : EventRow → EventRow) (hf : ∀ row, (f row).eventId = row.eventId)
    (eventId : String) (s : Store) :
    (s.setEvent eventId f hf).events.rows =
      s.events.rows.map fun row => if row.eventId = eventId then f row else row := rfl

/-- `put_blob`. Where it raises, there may be new directories. -/
def putBlob (key : String) (document : Value) (s : Store) : Except Error (List String) × Store :=
  ((s.blobs.put key document).1, { s with blobs := (s.blobs.put key document).2 })

/-- The row of an event after `stored.sequence = ...; stored.parent_event_id = ...`. -/
def placed (event : Event) (row : EventRow) : EventRow :=
  { row with
    event :=
      { row.event with sequence := event.sequence, parentEventId := event.parentEventId } }

/-- An event keeps its id where it is placed. -/
@[simp]
theorem eventId_placed (event : Event) (row : EventRow) :
    (placed event row).eventId = row.eventId := rfl

/-- The loop of `finish_recording` over the correlated events. The rows were read before and no
operation deletes a row, so every `session.get` finds one. -/
def placeEvents : List Event → Store → Store
  | [], s => s
  | event :: events, s =>
    placeEvents events (s.setEvent event.eventId (placed event) (eventId_placed event))

/-- The commit of `finish_recording`. -/
def complete (recordingId : String) (events : List Event) (locator : List String) (s : Store) :
    Store :=
  (s.placeEvents events).setRecording recordingId
    (fun row => { row with status := .completed, blobLocator := some locator })
    (fun row => by rfl)

end Store

/-- The document of `_snapshot_bytes`. -/
def snapshotDoc (row : RecordingRow) (events : List Event) : Value :=
  .dict [("recording_id", .str row.recordingId), ("project", .str row.project),
    ("kind", .str row.kind.value), ("title", .str row.title),
    ("events", .list (events.map fun e => .dict e.dump))]

/-- `_row_to_recording`. -/
def rowToRecording (row : RecordingRow) (events : List Event) : Recording where
  recordingId := row.recordingId
  project := row.project
  kind := row.kind
  status := row.status
  title := row.title
  capturePlugin := row.capturePlugin
  sourceRecordingId := row.sourceRecordingId
  target := row.target
  events := events

/-! ### What the transactions do -/

namespace Store

variable {s s' : Store} {order : RowOrder} {recordingId : String}

/-- The event rows of a recording are those that carry its id. -/
theorem mem_eventRows {row : EventRow} :
    row ∈ s.eventRows recordingId ↔ row ∈ s.events.rows ∧ row.event.recordingId = recordingId := by
  simp [eventRows]

/-- Whatever their order, the events are those of the rows. -/
theorem eventsFor_perm (order : RowOrder) (recordingId : String) (s : Store) :
    (s.eventsFor order recordingId).Perm ((s.eventRows recordingId).map EventRow.event) :=
  (order.perm _).map _

/-- Reading a recording gives one event for each row, in whatever order. -/
@[simp]
theorem length_eventsFor (order : RowOrder) (recordingId : String) (s : Store) :
    (s.eventsFor order recordingId).length = (s.eventRows recordingId).length := by
  rw [(eventsFor_perm order recordingId s).length_eq, List.length_map]

/-- The events of a recording are those that carry its id. -/
theorem mem_eventsFor {e : Event} :
    e ∈ s.eventsFor order recordingId ↔
      ∃ row ∈ s.events.rows, row.event = e ∧ e.recordingId = recordingId := by
  rw [(eventsFor_perm order recordingId s).mem_iff, List.mem_map]
  constructor
  · rintro ⟨row, hrow, rfl⟩
    exact ⟨row, (mem_eventRows.mp hrow).1, rfl, (mem_eventRows.mp hrow).2⟩
  · rintro ⟨row, hrow, rfl, hid⟩
    exact ⟨row, mem_eventRows.mpr ⟨hrow, hid⟩, rfl⟩

/-- Rows of different recordings have different keys. -/
theorem eventId_ne_of_mem_eventRows {other : String} (h : other ≠ recordingId) {row row' : EventRow}
    (hrow : row ∈ s.eventRows other) (hrow' : row' ∈ s.eventRows recordingId) :
    row.eventId ≠ row'.eventId := by
  rw [mem_eventRows] at hrow hrow'
  intro heq
  obtain rfl := s.events.eq_of_key_eq hrow.1 hrow'.1 heq
  exact h (hrow.2.symm.trans hrow'.2)

/-- Rows that are rewritten in place stay with their recordings. -/
theorem eventRows_of_map {f : EventRow → EventRow} (hrows : s'.events.rows = s.events.rows.map f)
    (hf : ∀ row, (f row).event.recordingId = row.event.recordingId) (recordingId : String) :
    s'.eventRows recordingId = (s.eventRows recordingId).map f := by
  rw [eventRows, hrows, List.filter_map, eventRows]
  congr 1
  apply List.filter_congr
  intro row _
  simp only [Function.comp_apply, hf]

/-- The id of an event is a key. -/
theorem nodup_eventRows (s : Store) (recordingId : String) :
    ((s.eventRows recordingId).map EventRow.eventId).Nodup :=
  s.events.nodup.sublist (List.filter_sublist.map _)

/-- So no two events of a recording share an id. -/
theorem nodup_eventsFor (order : RowOrder) (recordingId : String) (s : Store) :
    ((s.eventsFor order recordingId).map Event.eventId).Nodup := by
  refine (((eventsFor_perm order recordingId s).map Event.eventId).nodup_iff).mpr ?_
  rw [List.map_map]
  exact nodup_eventRows s recordingId

/-- A row that is inserted comes last, and nothing else changes. -/
theorem addRecording_eq_ok {row : RecordingRow} {u : Unit} (h : s.addRecording row = .ok (u, s')) :
    s'.recordings.rows = s.recordings.rows ++ [row] ∧ s'.events = s.events ∧
      s'.comparisons = s.comparisons ∧ s'.blobs = s.blobs := by
  rw [addRecording] at h
  split at h
  case h_1 recordings hadd =>
    cases h
    exact ⟨Table.addAll_eq_some_iff.mp hadd, rfl, rfl, rfl⟩
  case h_2 => cases h

/-- Rows that are inserted come last, and nothing else changes. -/
theorem addEvents_eq_ok {rows : List EventRow} {u : Unit} (h : s.addEvents rows = .ok (u, s')) :
    s'.events.rows = s.events.rows ++ rows ∧ s'.recordings = s.recordings ∧
      s'.comparisons = s.comparisons ∧ s'.blobs = s.blobs := by
  rw [addEvents] at h
  split at h
  case h_1 events hadd =>
    cases h
    exact ⟨Table.addAll_eq_some_iff.mp hadd, rfl, rfl, rfl⟩
  case h_2 => cases h

/-- Each recording gets the rows of a batch that carry its id. -/
theorem eventRows_addEvents {rows : List EventRow} {u : Unit}
    (h : s.addEvents rows = .ok (u, s')) (recordingId : String) :
    s'.eventRows recordingId =
      s.eventRows recordingId ++ rows.filter fun row => row.event.recordingId = recordingId := by
  rw [eventRows, (addEvents_eq_ok h).1, List.filter_append, eventRows]

/-- A recording whose id is not taken is added. -/
theorem exists_addRecording {row : RecordingRow}
    (h : row.recordingId ∉ s.recordings.rows.map RecordingRow.recordingId) :
    ∃ s', s.addRecording row = .ok ((), s') := by
  obtain ⟨recordings, hadd, -⟩ : ∃ recordings, s.recordings.addAll [row] = some recordings ∧ _ :=
    Table.exists_addAll_eq_some (by simp) (by simpa using h)
  exact ⟨{ s with recordings := recordings }, by rw [addRecording, hadd]⟩

/-- The id of a recording that was added was not taken. -/
theorem not_mem_of_addRecording {row : RecordingRow} {u : Unit}
    (h : s.addRecording row = .ok (u, s')) :
    row.recordingId ∉ s.recordings.rows.map RecordingRow.recordingId := by
  have hnd := s'.recordings.nodup
  rw [(addRecording_eq_ok h).1, List.map_append, List.map_singleton,
    List.nodup_append_singleton] at hnd
  exact hnd.2

/-- A recording that was added is found. -/
theorem find?_addRecording {row : RecordingRow} {u : Unit}
    (h : s.addRecording row = .ok (u, s')) :
    s'.recordings.find? row.recordingId = some row := by
  refine Table.find?_eq_some_iff.mpr ⟨?_, rfl⟩
  rw [(addRecording_eq_ok h).1]
  exact List.mem_append_right _ (List.mem_singleton_self row)

/-- The other recordings are found as before. -/
theorem find?_addRecording_of_ne {row : RecordingRow} {u : Unit}
    (h : s.addRecording row = .ok (u, s')) (hne : recordingId ≠ row.recordingId) :
    s'.recordings.find? recordingId = s.recordings.find? recordingId := by
  rw [Table.find?, (addRecording_eq_ok h).1, List.find?_append, Table.find?,
    List.find?_singleton, if_neg (by simpa using hne.symm), Option.or_none]

/-- Adding rows at once is adding them in two transactions. -/
theorem addEvents_append (rows rows' : List EventRow) (s : Store) :
    s.addEvents (rows ++ rows') =
      match s.addEvents rows with
      | .ok ((), s') => s'.addEvents rows'
      | .error e => .error e := by
  rw [addEvents, Table.addAll_append, addEvents]
  cases s.events.addAll rows <;> rfl

/-- Inserting no events succeeds. -/
@[simp]
theorem addEvents_nil (s : Store) : s.addEvents [] = .ok ((), s) := by
  have hadd : s.events.addAll [] = some s.events :=
    Table.addAll_eq_some_iff.mpr (List.append_nil _).symm
  rw [addEvents, hadd]

/-- Rows that are inserted have new ids. -/
theorem nodup_of_addEvents {rows : List EventRow} {u : Unit} (h : s.addEvents rows = .ok (u, s')) :
    ((s.events.rows ++ rows).map EventRow.eventId).Nodup := by
  rw [← (addEvents_eq_ok h).1]
  exact s'.events.nodup

/-- Rows are refused for an id that is there twice, and for nothing else. -/
theorem addEvents_eq_error {rows : List EventRow} {e : Error} (h : s.addEvents rows = .error e) :
    e = .integrity ∧ ¬((s.events.rows ++ rows).map EventRow.eventId).Nodup := by
  rw [addEvents] at h
  split at h
  case h_1 => cases h
  case h_2 hadd =>
    cases h
    exact ⟨rfl, Table.addAll_eq_none_iff.mp hadd⟩

/-- A row is refused for its id only. -/
theorem addRecording_eq_error {row : RecordingRow} {e : Error} (h : s.addRecording row = .error e) :
    e = .integrity := by
  rw [addRecording] at h
  split at h
  case h_1 => cases h
  case h_2 =>
    cases h
    rfl

/-- Rows whose keys are new and distinct are added. -/
theorem exists_addEvents {rows : List EventRow}
    (h : ((s.events.rows ++ rows).map EventRow.eventId).Nodup) :
    ∃ s', s.addEvents rows = .ok ((), s') := by
  cases hadd : s.addEvents rows with
  | ok r => exact ⟨r.2, rfl⟩
  | error e => exact absurd h (addEvents_eq_error hadd).2

@[simp]
theorem recordings_putBlob (key : String) (document : Value) (s : Store) :
    (s.putBlob key document).2.recordings = s.recordings := rfl

@[simp]
theorem events_putBlob (key : String) (document : Value) (s : Store) :
    (s.putBlob key document).2.events = s.events := rfl

/-- A blob is no event. -/
@[simp]
theorem eventsFor_putBlob (key : String) (document : Value) (s : Store) :
    (s.putBlob key document).2.eventsFor order recordingId = s.eventsFor order recordingId := by
  rw [eventsFor, eventRows, events_putBlob, eventsFor, eventRows]

/-- A document whose key is taken is written. -/
theorem exists_putBlob {key : String} {path : List String} (hpath : pathFor key = some path)
    (h : s.blobs.takes path = true) (document : Value) :
    ∃ s', s.putBlob key document = (.ok path, s') := by
  obtain ⟨b, hput⟩ := BlobRoot.exists_put hpath h document
  exact ⟨{ s with blobs := b }, by rw [putBlob, hput]⟩

/-- A call that returns sets one document. -/
theorem putBlob_eq_ok {key : String} {document : Value} {path : List String}
    (h : s.putBlob key document = (.ok path, s')) :
    pathFor key = some path ∧ ∃ b, s' = { s with blobs := b } ∧
      ∀ p, b.file? p = if p = path then some document else s.blobs.file? p := by
  obtain ⟨hok, rfl⟩ := Prod.mk.inj h
  obtain ⟨hpath, hfiles⟩ := BlobRoot.put_eq_ok (Prod.ext hok rfl)
  exact ⟨hpath, _, rfl, hfiles⟩

/-- A call that raises changes no document. -/
theorem putBlob_eq_error {key : String} {document : Value} {e : Error}
    (h : s.putBlob key document = (.error e, s')) :
    (e = .unsafeKey key ∨ BlobRoot.FileError e) ∧ ∃ b, s' = { s with blobs := b } ∧
      ∀ p, b.file? p = s.blobs.file? p := by
  obtain ⟨herror, rfl⟩ := Prod.mk.inj h
  obtain ⟨he, hfiles⟩ := BlobRoot.put_eq_error (Prod.ext herror rfl)
  exact ⟨he, _, rfl, hfiles⟩

/-- A call keeps every file. -/
theorem isSome_file?_putBlob (key : String) (document : Value) {path : List String}
    (h : (s.blobs.file? path).isSome) :
    ((s.putBlob key document).2.blobs.file? path).isSome := by
  rcases hput : s.putBlob key document with ⟨e | locator, s'⟩
  · obtain ⟨-, b, rfl, hfiles⟩ := putBlob_eq_error hput
    rwa [hfiles]
  · obtain ⟨-, b, rfl, hfiles⟩ := putBlob_eq_ok hput
    rw [hfiles]
    split_ifs
    · rfl
    · exact h

/-- The blobs of the store are a file tree of their own. -/
theorem put_of_putBlob {key : String} {document : Value} {path : List String}
    (h : s.putBlob key document = (.ok path, s')) :
    s.blobs.put key document = (.ok path, s'.blobs) := by
  obtain ⟨hok, hs⟩ := Prod.mk.inj h
  exact Prod.ext hok (congrArg Store.blobs hs)

/-- The key of a call that returned could be taken. -/
theorem takes_of_putBlob {key : String} {document : Value} {path : List String}
    (h : s.putBlob key document = (.ok path, s')) : s.blobs.takes path = true :=
  BlobRoot.takes_of_put (put_of_putBlob h)

/-- A document under a key that is not taken is not written. -/
theorem putBlob_of_not_takesKey {key : String} (h : s.blobs.takesKey key = false)
    (document : Value) :
    ∃ e s', s.putBlob key document = (.error e, s') := by
  rcases hput : s.putBlob key document with ⟨e | path, s'⟩
  · exact ⟨e, s', rfl⟩
  · have htaken : s.blobs.takesKey key = true := by
      rw [BlobRoot.takesKey, (putBlob_eq_ok hput).1]
      exact takes_of_putBlob hput
    rw [h] at htaken
    cases htaken

/-- Placing events changes event rows and nothing else. -/
theorem placeEvents_eq_setEvents (events : List Event) (s : Store) :
    s.placeEvents events = { s with events := (s.placeEvents events).events } := by
  induction events generalizing s with
  | nil => rfl
  | cons e events ih => exact ih _

/-- Numbering events leaves the recordings. -/
@[simp]
theorem recordings_placeEvents (events : List Event) (s : Store) :
    (s.placeEvents events).recordings = s.recordings := by
  rw [placeEvents_eq_setEvents]

/-- Numbering events leaves the blobs. -/
@[simp]
theorem blobs_placeEvents (events : List Event) (s : Store) :
    (s.placeEvents events).blobs = s.blobs := by
  rw [placeEvents_eq_setEvents]

/-- Numbering events leaves the comparisons. -/
@[simp]
theorem comparisons_placeEvents (events : List Event) (s : Store) :
    (s.placeEvents events).comparisons = s.comparisons := by
  rw [placeEvents_eq_setEvents]

/-- No row is lost when events are placed. -/
theorem exists_mem_placeEvents (events : List Event) {s : Store} {row : EventRow}
    (h : row ∈ s.events.rows) :
    ∃ n parent, { row with event := { row.event with sequence := n, parentEventId := parent } } ∈
      (s.placeEvents events).events.rows := by
  induction events generalizing s row with
  | nil => exact ⟨_, _, h⟩
  | cons e events ih =>
    rw [placeEvents]
    by_cases hid : row.eventId = e.eventId
    · -- the row is rewritten, and the rewritten row is followed through the other events
      have hplaced : placed e row ∈
          (s.setEvent e.eventId (placed e) (eventId_placed e)).events.rows :=
        List.mem_map.mpr ⟨row, h, if_pos hid⟩
      obtain ⟨n, parent, hmem⟩ := ih hplaced
      exact ⟨n, parent, hmem⟩
    · exact ih (List.mem_map.mpr ⟨row, h, if_neg hid⟩)

/-- The row of a recording after a change of one. -/
theorem find?_setRecording (f : RecordingRow → RecordingRow)
    (hf : ∀ row, (f row).recordingId = row.recordingId) (recordingId other : String) (s : Store) :
    (s.setRecording recordingId f hf).recordings.find? other =
      (s.recordings.find? other).map fun row =>
        if row.recordingId = recordingId then f row else row := by
  unfold setRecording
  rw [Table.find?_modify]

/-- A change of one recording leaves the rows of others alone. -/
theorem find?_setRecording_of_ne (f : RecordingRow → RecordingRow)
    (hf : ∀ row, (f row).recordingId = row.recordingId) {other : String}
    (h : other ≠ recordingId) (s : Store) :
    (s.setRecording recordingId f hf).recordings.find? other = s.recordings.find? other := by
  rw [find?_setRecording]
  cases hfind : s.recordings.find? other with
  | none => rfl
  | some row =>
    have hid : row.recordingId = other := (Table.find?_eq_some_iff.mp hfind).2
    rw [Option.map_some, if_neg (by rw [hid]; exact h)]

/-- The rows after a commit. -/
theorem rows_complete (recordingId : String) (events : List Event) (locator : List String)
    (s : Store) :
    (s.complete recordingId events locator).recordings.rows =
      s.recordings.rows.map fun row => if row.recordingId = recordingId then
        { row with status := .completed, blobLocator := some locator } else row := by
  rw [complete, rows_setRecording, recordings_placeEvents]

@[simp]
theorem blobs_complete (recordingId : String) (events : List Event) (locator : List String)
    (s : Store) : (s.complete recordingId events locator).blobs = s.blobs :=
  blobs_placeEvents events s

@[simp]
theorem comparisons_complete (recordingId : String) (events : List Event) (locator : List String)
    (s : Store) : (s.complete recordingId events locator).comparisons = s.comparisons :=
  comparisons_placeEvents events s

/-- The row of a recording after a commit. -/
theorem find?_complete (recordingId other : String) (events : List Event)
    (locator : List String) (s : Store) :
    (s.complete recordingId events locator).recordings.find? other =
      (s.recordings.find? other).map fun row => if row.recordingId = recordingId then
        { row with status := .completed, blobLocator := some locator } else row := by
  rw [complete, find?_setRecording, recordings_placeEvents]

/-- A commit leaves the rows of other recordings alone. -/
theorem find?_complete_of_ne {other : String} (h : other ≠ recordingId) (events : List Event)
    (locator : List String) :
    (s.complete recordingId events locator).recordings.find? other = s.recordings.find? other := by
  rw [complete, find?_setRecording_of_ne _ _ h, recordings_placeEvents]

/-- Placing events keeps what does not depend on the place of a row. -/
theorem map_placeEvents {β : Type} {f : EventRow → β} (hf : ∀ e row, f (placed e row) = f row)
    (events : List Event) (s : Store) :
    (s.placeEvents events).events.rows.map f = s.events.rows.map f := by
  induction events generalizing s with
  | nil => rfl
  | cons e events ih =>
    rw [placeEvents, ih, rows_setEvent, List.map_map]
    refine List.map_congr_left fun row _ => ?_
    simp only [Function.comp_apply]
    split_ifs
    · exact hf e row
    · rfl

/-- Placing events changes no id. -/
theorem map_eventId_placeEvents (events : List Event) (s : Store) :
    (s.placeEvents events).events.rows.map EventRow.eventId =
      s.events.rows.map EventRow.eventId :=
  map_placeEvents (fun _ _ => rfl) events s

/-- So does a commit, recording by recording. -/
theorem map_eventRows_complete {β : Type} {f : EventRow → β}
    (hf : ∀ e row, f (placed e row) = f row) (recordingId other : String) (events : List Event)
    (locator : List String) (s : Store) :
    ((s.complete recordingId events locator).eventRows other).map f =
      (s.eventRows other).map f := by
  have hfilter : ∀ rows : List EventRow,
      (rows.filter fun row => row.event.recordingId = other).map f =
        ((rows.map fun row => (f row, row.event.recordingId)).filter fun p => p.2 = other).map
          Prod.fst := by
    intro rows
    rw [List.filter_map, List.map_map]
    rfl
  rw [eventRows, eventRows, hfilter, hfilter]
  congr 2
  exact map_placeEvents (fun e row => by rw [hf]; rfl) events s

/-- Placing events whose ids are distinct puts each at its own row. -/
theorem rows_placeEvents {events : List Event} (hnd : (events.map Event.eventId).Nodup)
    (s : Store) :
    (s.placeEvents events).events.rows = s.events.rows.map fun row =>
      ((events.find? fun e => e.eventId = row.eventId).map fun e => placed e row).getD row := by
  have hrows : (s.placeEvents events).events.rows = events.foldl (fun rows e =>
      rows.map fun row => if row.eventId = e.eventId then placed e row else row)
        s.events.rows := by
    clear hnd
    induction events generalizing s with
    | nil => rfl
    | cons e events ih => rw [placeEvents, ih, rows_setEvent, List.foldl_cons]
  rw [hrows, Table.foldl_rewrite eventId_placed hnd]

/-- The commit goes row by row: a row takes the place of the event with its id. -/
theorem eventRows_complete {events : List Event} (hnd : (events.map Event.eventId).Nodup)
    (locator : List String) (s : Store) (recordingId other : String) :
    (s.complete recordingId events locator).eventRows other =
      (s.eventRows other).map fun row =>
        ((events.find? fun e => e.eventId = row.eventId).map fun e => placed e row).getD row := by
  refine eventRows_of_map (rows_placeEvents hnd s) (fun row => ?_) other
  cases events.find? fun e => e.eventId = row.eventId <;> rfl

/-- The commit rewrites no row of another recording when the events are those of its own rows. -/
theorem eventRows_complete_of_ne {events : List Event} (hnd : (events.map Event.eventId).Nodup)
    (howned : ∀ e ∈ events, ∃ row ∈ s.eventRows recordingId, row.eventId = e.eventId)
    {other : String} (h : other ≠ recordingId) (locator : List String) :
    (s.complete recordingId events locator).eventRows other = s.eventRows other := by
  rw [eventRows_complete hnd]
  refine (List.map_congr_left fun row hrow => ?_).trans (List.map_id' _)
  have hnone : (events.find? fun e => e.eventId = row.eventId) = none := by
    refine List.find?_eq_none.mpr fun e he heq => ?_
    obtain ⟨row', hrow', hid⟩ := howned e he
    exact eventId_ne_of_mem_eventRows h hrow hrow' ((of_decide_eq_true heq).symm.trans hid.symm)
  rw [hnone]
  rfl

end Store

end InfraReplay
