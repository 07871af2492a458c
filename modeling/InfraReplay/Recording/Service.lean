import InfraReplay.Common.Prog
import InfraReplay.Plugins.Redaction
import InfraReplay.Recording.Correlate
import InfraReplay.Recording.Store

/-!
# The recording service

The operations on recordings as tasks over the store. Each database session that commits, and each
query, is one atomic step; between two steps other tasks may run. Ids that `uuid4` makes up are
arguments.

The second half says what an operation does when it runs without interruption: `run_appendEvents`,
`run_finishRecording`, and the errors of both.
-/

namespace InfraReplay

open Python

/-- `f"{prefix}_{uuid4().hex[:12]}"`. -/
def newId (stem hex : String) : String := stem ++ "_" ++ hex

/-- Ids made from different random parts differ. -/
theorem newId_injective (stem : String) : Function.Injective (newId stem) := by
  intro a b h
  have h' : stem ++ "_" ++ a = stem ++ "_" ++ b := h
  exact (String.append_right_inj _).mp h'

/-- An id that `new_id` makes up is not empty. -/
theorem newId_ne (stem hex : String) : newId stem hex ≠ "" := by
  intro h
  simpa [newId] using congrArg String.length h

/-- The keyword arguments of `start_recording`. -/
structure NewRecording where
  project : String := "default"
  title : String := ""
  kind : RecordingKind := .capture
  capturePlugin : String := ""
  target : Option String := none
  sourceRecordingId : Option String := none
  recordingId : Option String := none

/-- `recording_id or new_id(...)`. -/
def NewRecording.chosenId (new : NewRecording) (hex : String) : String :=
  (orElse new.recordingId
    (some (newId (if new.kind = .capture then "rec" else "rpl") hex))).getD ""

/-- No recording is opened under the empty id. -/
theorem NewRecording.chosenId_ne (new : NewRecording) (hex : String) : new.chosenId hex ≠ "" := by
  unfold chosenId orElse
  by_cases h : new.recordingId = none ∨ new.recordingId = some ""
  · rw [if_pos h]
    exact newId_ne _ hex
  · rw [if_neg h]
    rw [not_or] at h
    obtain ⟨id, hid⟩ := Option.ne_none_iff_exists'.mp h.1
    rw [hid] at h ⊢
    exact fun hempty => h.2 (congrArg some hempty)

/-- The row `start_recording` adds. -/
def NewRecording.row (new : NewRecording) (hex : String) : RecordingRow where
  recordingId := new.chosenId hex
  project := new.project
  kind := new.kind
  status := .recording
  title := new.title
  capturePlugin := new.capturePlugin
  target := new.target
  sourceRecordingId := new.sourceRecordingId

/-- `start_recording`. -/
def startRecording (new : NewRecording) (hex : String) : Prog Store Error String := do
  Prog.tx (Store.addRecording (new.row hex))
  return new.chosenId hex

/-- The rows `append_events` adds: every event redacted, with the original it reproduces. -/
def redactedRows (events : List Event) (links : Dict String String) : List EventRow :=
  (events.map redact).map fun clean => ⟨clean, links.get? clean.eventId⟩

/-- There is one row for each event. -/
@[simp]
theorem length_redactedRows (events : List Event) (links : Dict String String) :
    (redactedRows events links).length = events.length := by
  rw [redactedRows, List.length_map, List.length_map]

/-- The new rows have the ids of the events. -/
theorem map_eventId_redactedRows (events : List Event) (links : Dict String String) :
    (redactedRows events links).map EventRow.eventId = events.map Event.eventId := by
  rw [redactedRows, List.map_map, List.map_map]
  rfl

/-- An event is stored redacted, with its link. -/
theorem mem_redactedRows {events : List Event} (links : Dict String String) {e : Event}
    (h : e ∈ events) : ⟨redact e, links.get? e.eventId⟩ ∈ redactedRows events links :=
  List.mem_map.mpr ⟨redact e, List.mem_map_of_mem h, rfl⟩

/-- A new row carries the recording id of its event. -/
theorem filter_redactedRows (events : List Event) (links : Dict String String)
    (recordingId : String) :
    ((redactedRows events links).filter fun row => row.event.recordingId = recordingId) =
      redactedRows (events.filter fun e => e.recordingId = recordingId) links := by
  rw [redactedRows, List.map_map, List.filter_map, redactedRows, List.map_map]
  rfl

/-- Rows of events whose ids are new can be inserted. -/
theorem Store.exists_addEvents_redacted {s : Store} {events : List Event}
    {links : Dict String String} (hnd : (events.map Event.eventId).Nodup)
    (h : ∀ e ∈ events, e.eventId ∉ s.events.rows.map EventRow.eventId) :
    ∃ s', s.addEvents (redactedRows events links) = .ok ((), s') := by
  refine Store.exists_addEvents ?_
  rw [List.map_append, map_eventId_redactedRows, List.nodup_append']
  refine ⟨s.events.nodup, hnd, fun id hid hid' => ?_⟩
  obtain ⟨e, he, rfl⟩ := List.mem_map.mp hid'
  exact h e he hid

/-- A batch of events of one recording gives it all the rows. -/
theorem eventRows_addEvents_owned {s s' : Store} {recordingId : String} {events : List Event}
    {links : Dict String String} {u : Unit}
    (h : s.addEvents (redactedRows events links) = .ok (u, s'))
    (howned : ∀ e ∈ events, e.recordingId = recordingId) :
    s'.eventRows recordingId = s.eventRows recordingId ++ redactedRows events links := by
  have hall : (events.filter fun e => e.recordingId = recordingId) = events :=
    List.filter_eq_self.mpr fun e he => decide_eq_true (howned e he)
  rw [Store.eventRows_addEvents h, filter_redactedRows, hall]

/-- A batch without an event of the recording leaves the recording's events alone. -/
theorem eventRows_addEvents_foreign {s s' : Store} {recordingId : String} {events : List Event}
    {links : Dict String String} {u : Unit}
    (h : s.addEvents (redactedRows events links) = .ok (u, s'))
    (hforeign : ∀ e ∈ events, e.recordingId ≠ recordingId) :
    s'.eventRows recordingId = s.eventRows recordingId := by
  have hnone : (events.filter fun e => e.recordingId = recordingId) = [] :=
    List.filter_eq_nil_iff.mpr fun e he => by simpa using hforeign e he
  rw [Store.eventRows_addEvents h, filter_redactedRows, hnone]
  exact List.append_nil _

/-- `append_events`. The rows carry the recording id of each event, not `_recordingId`. -/
def appendEvents (_recordingId : String) (events : List Event) (links : Dict String String := []) :
    Prog Store Error (List Event) :=
  if events = [] then return []
  else do
    Prog.tx (Store.addEvents (redactedRows events links))
    return events.map redact

/-- The row `fail_recording` leaves. -/
def RecordingRow.failed (reason : String) (row : RecordingRow) : RecordingRow :=
  { row with status := .failed, title := row.title ++ " (failed: " ++ reason ++ ")" }

theorem RecordingRow.recordingId_failed (reason : String) (row : RecordingRow) :
    (row.failed reason).recordingId = row.recordingId := rfl

/-- `fail_recording`. -/
def failRecording (recordingId reason : String) : Prog Store Error Unit :=
  Prog.tx fun s =>
    .ok ((), s.setRecording recordingId (RecordingRow.failed reason)
      (RecordingRow.recordingId_failed reason))

/-- `finish_recording`: read the row, read and correlate the events, write the snapshot, commit. -/
def finishRecording (order : RowOrder) (recordingId : String) : Prog Store Error Recording := do
  match ← Prog.read fun s => s.recordings.find? recordingId with
  | none => throw (.keyError recordingId)
  | some row =>
    let events ← Prog.read fun s => correlate (s.eventsFor order recordingId)
    -- the file is written before the rows are committed
    let locator ← Prog.call (Store.putBlob (snapshotKey recordingId) (snapshotDoc row events))
    Prog.tx fun s => .ok ((), s.complete recordingId events locator)
    return rowToRecording { row with status := .completed } events

/-- `get_recording`. -/
def getRecording (order : RowOrder) (recordingId : String) :
    Prog Store Error (Option Recording) := do
  match ← Prog.read fun s => s.recordings.find? recordingId with
  | none => return none
  | some row =>
    let events ← Prog.read fun s => s.eventsFor order recordingId
    return some (rowToRecording row events)

/-- `get_status`. -/
def getStatus (recordingId : String) : Prog Store Error (Option RecordingStatus) :=
  Prog.read fun s => (s.recordings.find? recordingId).map RecordingRow.status

/-- `link_replay_events`: the loop sets the original of every replayed row that exists. -/
def Store.linkEvents (links : Dict String String) (s : Store) : Store :=
  links.foldl
    (fun s link => s.setEvent link.2 (fun row => { row with sourceEventId := some link.1 })
      fun _ => rfl)
    s

/-- Linking changes event rows only. -/
theorem Store.linkEvents_frame (links : Dict String String) (s : Store) :
    (s.linkEvents links).recordings = s.recordings ∧
      (s.linkEvents links).comparisons = s.comparisons ∧ (s.linkEvents links).blobs = s.blobs := by
  unfold Store.linkEvents
  induction links generalizing s with
  | nil => exact ⟨rfl, rfl, rfl⟩
  | cons link links ih => exact ih _

/-- Links to distinct events put each original at its own row. -/
theorem Store.rows_linkEvents {links : Dict String String} (hnd : (links.map Prod.snd).Nodup)
    (s : Store) :
    (s.linkEvents links).events.rows = s.events.rows.map fun row =>
      ((links.find? fun link => link.2 = row.eventId).map fun link =>
        { row with sourceEventId := some link.1 }).getD row := by
  have hrows : (s.linkEvents links).events.rows = links.foldl (fun rows link =>
      rows.map fun row => if row.eventId = link.2 then
        { row with sourceEventId := some link.1 } else row) s.events.rows := by
    unfold Store.linkEvents
    clear hnd
    induction links generalizing s with
    | nil => rfl
    | cons link links ih => exact ih _
  have hkey : ∀ (link : String × String) (row : EventRow),
      EventRow.eventId { row with sourceEventId := some link.1 } = row.eventId := fun _ _ => rfl
  exact hrows.trans (Table.foldl_rewrite hkey hnd _)

/-- Linking rewrites the rows of each recording in place. -/
theorem Store.eventRows_linkEvents {links : Dict String String} (hnd : (links.map Prod.snd).Nodup)
    (s : Store) (recordingId : String) :
    (s.linkEvents links).eventRows recordingId = (s.eventRows recordingId).map fun row =>
      ((links.find? fun link => link.2 = row.eventId).map fun link =>
        { row with sourceEventId := some link.1 }).getD row := by
  refine eventRows_of_map (rows_linkEvents hnd s) (fun row => ?_) recordingId
  cases links.find? fun link => link.2 = row.eventId <;> rfl

/-- `link_replay_events`. -/
def linkReplayEvents (_replayRecordingId : String) (links : Dict String String) :
    Prog Store Error Unit :=
  Prog.tx fun s => .ok ((), s.linkEvents links)

/-- `save_comparison`. -/
def saveComparison (replayRecordingId : String) (results : List ComparisonResult) :
    Prog Store Error Unit :=
  Prog.tx fun s =>
    .ok ((), { s with
      comparisons := s.comparisons ++
        results.map fun r => { r with replayRecordingId := replayRecordingId } })

/-- `get_comparison`: the rows of one replay, in the order of their ids. -/
def getComparison (replayRecordingId : String) : Prog Store Error (List ComparisonResult) :=
  Prog.read fun s => s.comparisons.filter fun r => r.replayRecordingId = replayRecordingId

/-! ### One-shot capture -/

/-- What a finite capture plugin does: an exception from `start`, the events it yields, and an
exception while it yields or stops. -/
structure PluginRun where
  started : Except Error Unit := .ok ()
  events : List Event
  stopped : Except Error Unit := .ok ()

/-- Raise the exception a plugin raised. -/
def pluginResult : Except Error Unit → Prog Store Error Unit
  | .ok () => return ()
  | .error e => throw e

/-- `async for event in plugin.events(): await append_events(recording_id, [event])`. -/
def pump (recordingId : String) : List Event → Prog Store Error Unit
  | [] => return ()
  | event :: events => do
    let _ ← appendEvents recordingId [event]
    pump recordingId events

/-- `capture_recording`, for a plugin that knows its recording id. -/
def captureRecording (order : RowOrder) (project title pluginName hex : String)
    (plugin : String → PluginRun) : Prog Store Error Recording := do
  let recordingId ← startRecording
    { project := project, title := title, capturePlugin := pluginName } hex
  tryCatch
    (do
      pluginResult (plugin recordingId).started
      pump recordingId (plugin recordingId).events
      pluginResult (plugin recordingId).stopped)
    fun exc => do
      failRecording recordingId exc.text
      throw exc
  finishRecording order recordingId

/-! ### Runs without interruption -/

variable {s s' : Store} {order : RowOrder} {recordingId : String}

/-- Appending either adds all rows or raises and changes nothing. -/
theorem run_appendEvents (recordingId : String) (events : List Event)
    (links : Dict String String) (s : Store) :
    (appendEvents recordingId events links).run s =
      if events = [] then (.ok [], s)
      else match s.addEvents (redactedRows events links) with
        | .ok ((), s') => (.ok (events.map redact), s')
        | .error e => (.error e, s) := by
  rw [appendEvents]
  split_ifs with hnil
  · rfl
  · split
    case h_1 s' hadd =>
      rw [Prog.run_bind_ok (Prog.run_tx_ok hadd)]
      rfl
    case h_2 e hadd =>
      rw [Prog.run_bind_error (Prog.run_tx_error hadd)]

/-- A task that starts by appending something commits the rows or raises. -/
theorem step_appendEvents_bind {β : Type} {events : List Event} (hne : events ≠ [])
    (recordingId : String) (links : Dict String String) (g : List Event → Prog Store Error β)
    (s : Store) :
    (appendEvents recordingId events links >>= g).step s =
      some (match s.addEvents (redactedRows events links) with
        | .ok ((), s') => (g (events.map redact), s')
        | .error e => (throw e, s)) := by
  rw [appendEvents, if_neg hne, bind_assoc, Prog.step_tx_bind]
  cases s.addEvents (redactedRows events links) <;> rfl

/-- The row, the events, the file, the commit. -/
theorem run_finishRecording_eq {row : RecordingRow}
    (hrow : s.recordings.find? recordingId = some row) :
    (finishRecording order recordingId).run s =
      match s.putBlob (snapshotKey recordingId)
        (snapshotDoc row (correlate (s.eventsFor order recordingId))) with
      | (.ok path, s') =>
        (.ok (rowToRecording { row with status := .completed }
            (correlate (s.eventsFor order recordingId))),
          s'.complete recordingId (correlate (s.eventsFor order recordingId)) path)
      | (.error e, s') => (.error e, s') := by
  rw [finishRecording, Prog.run_bind_ok (Prog.run_read _ s), hrow]
  simp only
  rw [Prog.run_bind_ok (Prog.run_read _ s), Prog.run_bind, Prog.run_call]
  rcases s.putBlob (snapshotKey recordingId)
    (snapshotDoc row (correlate (s.eventsFor order recordingId))) with ⟨e | path, s'⟩ <;> rfl

/-- `start_recording` catches nothing. -/
theorem uncaught_startRecording (new : NewRecording) (hex : String) :
    (startRecording new hex).Uncaught :=
  (Prog.uncaught_tx _).bind fun _ => trivial

/-- Nor does `append_events`. -/
theorem uncaught_appendEvents (recordingId : String) (events : List Event)
    (links : Dict String String) : (appendEvents recordingId events links).Uncaught := by
  unfold appendEvents
  split_ifs
  · trivial
  · exact (Prog.uncaught_tx _).bind fun _ => trivial

/-- Nor does `finish_recording`. -/
theorem uncaught_finishRecording (order : RowOrder) (recordingId : String) :
    (finishRecording order recordingId).Uncaught := by
  refine (Prog.uncaught_read _).bind fun row => ?_
  cases row with
  | none => trivial
  | some row =>
    exact (Prog.uncaught_read _).bind fun _ => (Prog.uncaught_call _).bind fun _ =>
      (Prog.uncaught_tx _).bind fun _ => trivial

/-- The store after `finish_recording`. -/
def Store.finished (s : Store) (row : RecordingRow) (events : List Event) (path : List String) :
    Store :=
  Store.complete row.recordingId events path
    (s.putBlob (snapshotKey row.recordingId) (snapshotDoc row events)).2

/-- Finishing a recording that exists succeeds where its snapshot can be written. -/
theorem run_finishRecording {row : RecordingRow} {path : List String}
    (hrow : s.recordings.find? recordingId = some row)
    (hpath : pathFor (snapshotKey recordingId) = some path)
    (htakes : s.blobs.takes path = true) :
    (finishRecording order recordingId).run s =
      (.ok (rowToRecording { row with status := .completed }
          (correlate (s.eventsFor order recordingId))),
        s.finished row (correlate (s.eventsFor order recordingId)) path) := by
  have hid : row.recordingId = recordingId := (Table.find?_eq_some_iff.mp hrow).2
  subst hid
  obtain ⟨s', hput⟩ := Store.exists_putBlob hpath htakes
    (snapshotDoc row (correlate (s.eventsFor order row.recordingId)))
  rw [run_finishRecording_eq hrow, Store.finished, hput]

/-- Finishing a recording that does not exist raises. -/
theorem run_finishRecording_of_none (hrow : s.recordings.find? recordingId = none) :
    (finishRecording order recordingId).run s = (.error (.keyError recordingId), s) := by
  rw [finishRecording, Prog.run_bind_ok (Prog.run_read _ s), hrow]
  rfl

/-- Finishing raises where the snapshot cannot be written, and changes no row and no document. -/
theorem run_finishRecording_of_badKey {row : RecordingRow}
    (hrow : s.recordings.find? recordingId = some row)
    (htakes : s.blobs.takesKey (snapshotKey recordingId) = false) :
    ∃ e b, (finishRecording order recordingId).run s = (.error e, { s with blobs := b }) ∧
      (e = .unsafeKey (snapshotKey recordingId) ∨ BlobRoot.FileError e) ∧
      ∀ p, b.file? p = s.blobs.file? p := by
  obtain ⟨e, s', hput⟩ := Store.putBlob_of_not_takesKey htakes
    (snapshotDoc row (correlate (s.eventsFor order recordingId)))
  obtain ⟨he, b, rfl, hfiles⟩ := Store.putBlob_eq_error hput
  refine ⟨e, b, ?_, he, hfiles⟩
  rw [run_finishRecording_eq hrow, hput]

/-- What a successful `finish_recording` did. -/
theorem exists_of_run_finishRecording {recording : Recording}
    (h : (finishRecording order recordingId).run s = (.ok recording, s')) :
    ∃ row path, s.recordings.find? recordingId = some row ∧
      pathFor (snapshotKey recordingId) = some path ∧ s.blobs.takes path = true ∧
      recording = rowToRecording { row with status := .completed }
        (correlate (s.eventsFor order recordingId)) ∧
      s' = s.finished row (correlate (s.eventsFor order recordingId)) path := by
  -- the run has not raised, so there is a row and a path that the root takes
  cases hrow : s.recordings.find? recordingId with
  | none =>
    rw [run_finishRecording_of_none hrow] at h
    cases (Prod.mk.inj h).1
  | some row =>
    cases htakes : s.blobs.takesKey (snapshotKey recordingId) with
    | false =>
      obtain ⟨e, t, hrun, -⟩ := @run_finishRecording_of_badKey s order recordingId row hrow htakes
      rw [hrun] at h
      cases (Prod.mk.inj h).1
    | true =>
      obtain ⟨path, hpath, htaken⟩ := BlobRoot.takesKey_iff.mp htakes
      rw [run_finishRecording hrow hpath htaken] at h
      obtain ⟨hrec, hs'⟩ := Prod.mk.inj h
      exact ⟨row, path, rfl, hpath, htaken, (Except.ok.inj hrec).symm, hs'.symm⟩

/-! ### The events of a completed recording -/

/-- A correlated event is a stored one with a new place. -/
theorem exists_placed_of_mem_correlate {e : Event}
    (he : e ∈ correlate (s.eventsFor order recordingId)) :
    ∃ row ∈ s.eventRows recordingId, (Store.placed e row).event = e := by
  obtain ⟨e₀, he₀, heq⟩ := mem_correlate he
  obtain ⟨row, hrow, rfl, hid⟩ := Store.mem_eventsFor.mp he₀
  exact ⟨row, Store.mem_eventRows.mpr ⟨hrow, hid⟩, heq.symm⟩

/-- Ids stay distinct in what is read and correlated. -/
theorem nodup_correlate_eventsFor (order : RowOrder) (recordingId : String) (s : Store) :
    ((correlate (s.eventsFor order recordingId)).map Event.eventId).Nodup :=
  (map_eventId_correlate_perm _).nodup_iff.mpr (Store.nodup_eventsFor order recordingId s)

/-- The row at which the commit leaves an event of the recording is that event. -/
private theorem event_placed {events : List Event}
    (hevents : events = correlate (s.eventsFor order recordingId)) {row : EventRow}
    (hrow : row ∈ s.eventRows recordingId) :
    ∃ e ∈ events, (events.find? fun e => e.eventId = row.eventId) = some e ∧
      (Store.placed e row).event = e := by
  have hids : row.eventId ∈ events.map Event.eventId := by
    rw [hevents, (map_eventId_correlate_perm _).mem_iff,
      ((Store.eventsFor_perm order recordingId s).map Event.eventId).mem_iff, List.map_map]
    exact List.mem_map_of_mem hrow
  obtain ⟨e, he⟩ : ∃ e, (events.find? fun e => e.eventId = row.eventId) = some e := by
    obtain ⟨e, he, hid⟩ := List.mem_map.mp hids
    exact Option.isSome_iff_exists.mp (List.find?_isSome.mpr ⟨e, he, by simpa using hid⟩)
  have hmem : e ∈ events := List.mem_of_find?_eq_some he
  have hid : e.eventId = row.eventId := by simpa using List.find?_some he
  obtain ⟨row₀, hrow₀, hplaced⟩ := exists_placed_of_mem_correlate (hevents ▸ hmem)
  -- the event came from a row with the same primary key, which is this row
  have hrows : row₀ = row := by
    refine s.events.eq_of_key_eq (Store.mem_eventRows.mp hrow₀).1 (Store.mem_eventRows.mp hrow).1 ?_
    rw [← hid, ← hplaced]
    rfl
  exact ⟨e, hmem, he, hrows ▸ hplaced⟩

/-- After the commit the stored events of the recording are the correlated ones. -/
theorem map_event_eventRows_complete {events : List Event} (locator : List String)
    (hevents : events = correlate (s.eventsFor order recordingId)) :
    (((s.complete recordingId events locator).eventRows recordingId).map EventRow.event).Perm
      events := by
  have hperm := Store.eventsFor_perm order recordingId s
  have hids : (events.map Event.eventId).Perm
      (((s.eventRows recordingId).map EventRow.event).map Event.eventId) := by
    rw [hevents]
    exact (map_eventId_correlate_perm _).trans (hperm.map _)
  have hnd : (events.map Event.eventId).Nodup := by
    rw [hids.nodup_iff, List.map_map]
    exact s.nodup_eventRows recordingId
  rw [Store.eventRows_complete hnd, List.map_map]
  -- the stored events are among the correlated ones, and their ids are the same
  refine List.perm_of_map_perm hnd (fun e he => ?_) ?_
  · obtain ⟨row, hrow, rfl⟩ := List.mem_map.mp he
    obtain ⟨e, hmem, hfind, hplaced⟩ := event_placed hevents hrow
    simpa [hfind, hplaced] using hmem
  · rw [List.map_map]
    refine List.Perm.trans (List.Perm.of_eq ?_) hids.symm
    rw [List.map_map]
    refine List.map_congr_left fun row _ => ?_
    simp only [Function.comp_apply]
    cases events.find? fun e => e.eventId = row.eventId <;> rfl

/-- A completed recording reads back, in any row order, as it was correlated. -/
theorem eventsFor_complete {events : List Event} (order' : RowOrder) (locator : List String)
    (hevents : events = correlate (s.eventsFor order recordingId)) :
    (s.complete recordingId events locator).eventsFor order' recordingId = events := by
  have hperm := (Store.eventsFor_perm order' recordingId _).trans
    (map_event_eventRows_complete locator hevents)
  refine hperm.eq_of_pairwise_key Event.sequence ?_ ?_
  · rw [Store.eventsFor, List.pairwise_map]
    exact order'.sorted _
  · rw [hevents]
    exact (finished_correlate _).pairwise_sequence

/-- After `finish_recording`, `get_recording` gives what it returned, in any row order. -/
theorem run_getRecording_of_finish (order' : RowOrder) {recording : Recording}
    (h : (finishRecording order recordingId).run s = (.ok recording, s')) :
    (getRecording order' recordingId).run s' = (.ok (some recording), s') := by
  obtain ⟨row, path, hrow, -, -, rfl, rfl⟩ := exists_of_run_finishRecording h
  obtain rfl : row.recordingId = recordingId := (Table.find?_eq_some_iff.mp hrow).2
  let events := correlate (s.eventsFor order row.recordingId)
  have hfind : (s.finished row events path).recordings.find? row.recordingId =
      some { row with status := .completed, blobLocator := some path } := by
    unfold Store.finished Store.complete Store.setRecording
    rw [Table.find?_modify, Store.recordings_placeEvents, Store.recordings_putBlob, hrow,
      Option.map_some, if_pos rfl]
  have hread : (s.finished row events path).eventsFor order' row.recordingId = events :=
    -- the snapshot is no part of what is read
    eventsFor_complete order' path rfl
  rw [getRecording, Prog.run_bind_ok (Prog.run_read _ _), hfind]
  simp only
  rw [Prog.run_bind_ok (Prog.run_read _ _), hread]
  rfl

end InfraReplay
