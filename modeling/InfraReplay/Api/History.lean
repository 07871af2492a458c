import InfraReplay.Api.Tasks
import InfraReplay.Common.Growth
import InfraReplay.Common.Rely

/-!
# The store is append-only

No operation deletes a row or takes back what it says. `Store.Extends` is what a store can become:
rows stay where they are, an event keeps everything but its place, its parent and its link, a
recording keeps its identity and never opens again, comparisons are added behind the old ones, and
a snapshot file stays. Every atomic step of every operation satisfies it, so it relates every moment
of every run to every later one, whatever is under way meanwhile (`reads_of_later`).
-/

namespace InfraReplay

open Python

/-- What a recording row can become. -/
structure RecordingRow.Later (row row' : RecordingRow) : Prop where
  recordingId : row'.recordingId = row.recordingId
  project : row'.project = row.project
  kind : row'.kind = row.kind
  capturePlugin : row'.capturePlugin = row.capturePlugin
  sourceRecordingId : row'.sourceRecordingId = row.sourceRecordingId
  target : row'.target = row.target
  /-- A status other than the old one is a final one. -/
  status : row'.status = row.status ∨ row'.status = .completed ∨ row'.status = .failed
  /-- A reason of failure comes behind the title. -/
  title : row.title.toList <+: row'.title.toList
  blobLocator : row.blobLocator.isSome → row'.blobLocator.isSome

/-- A row is as late as itself. -/
theorem RecordingRow.Later.refl (row : RecordingRow) : row.Later row :=
  ⟨rfl, rfl, rfl, rfl, rfl, rfl, .inl rfl, List.prefix_rfl, id⟩

/-- Later than later is later. -/
theorem RecordingRow.Later.trans {row row' row'' : RecordingRow} (h : row.Later row')
    (h' : row'.Later row'') : row.Later row'' where
  recordingId := h'.recordingId.trans h.recordingId
  project := h'.project.trans h.project
  kind := h'.kind.trans h.kind
  capturePlugin := h'.capturePlugin.trans h.capturePlugin
  sourceRecordingId := h'.sourceRecordingId.trans h.sourceRecordingId
  target := h'.target.trans h.target
  status := by
    rcases h'.status with hsame | hfinal
    · rw [hsame]
      exact h.status
    · exact .inr hfinal
  title := h.title.trans h'.title
  blobLocator hsome := h'.blobLocator (h.blobLocator hsome)

/-- What an event row can become: what was captured stays. -/
def EventRow.Later (row row' : EventRow) : Prop := row'.event.bare = row.event.bare

theorem EventRow.Later.refl (row : EventRow) : row.Later row := rfl

namespace Store

/-- What a store can become. -/
structure Extends (s s' : Store) : Prop where
  recordings : s.recordings.rows.Grows RecordingRow.Later s'.recordings.rows
  events : s.events.rows.Grows EventRow.Later s'.events.rows
  comparisons : s.comparisons <+: s'.comparisons
  blobs : ∀ path, (s.blobs.file? path).isSome → (s'.blobs.file? path).isSome

namespace Extends

variable {s s' s'' : Store}

/-- A store extends itself. -/
theorem refl (s : Store) : s.Extends s :=
  ⟨.refl RecordingRow.Later.refl _, .refl EventRow.Later.refl _, List.prefix_rfl, fun _ h => h⟩

/-- What extends an extension extends the store. -/
theorem trans (h : s.Extends s') (h' : s'.Extends s'') : s.Extends s'' where
  recordings := h.recordings.trans (fun _ _ _ hab hbc => hab.trans hbc) h'.recordings
  events := h.events.trans (fun _ _ _ hab hbc => Eq.trans hbc hab) h'.events
  comparisons := h.comparisons.trans h'.comparisons
  blobs path hpath := h'.blobs path (h.blobs path hpath)

/-! ### Steps -/

/-- A row is added behind the others. -/
theorem addRecording {row : RecordingRow} {u : Unit} (h : s.addRecording row = .ok (u, s')) :
    s.Extends s' := by
  obtain ⟨hrows, hevents, hcomparisons, hblobs⟩ := addRecording_eq_ok h
  refine ⟨?_, hevents ▸ (refl s).events, hcomparisons ▸ (refl s).comparisons,
    hblobs ▸ (refl s).blobs⟩
  rw [hrows]
  exact .append RecordingRow.Later.refl _ _

/-- Event rows are added behind the others. -/
theorem addEvents {rows : List EventRow} {u : Unit} (h : s.addEvents rows = .ok (u, s')) :
    s.Extends s' := by
  obtain ⟨hrows, hrecordings, hcomparisons, hblobs⟩ := addEvents_eq_ok h
  refine ⟨hrecordings ▸ (refl s).recordings, ?_, hcomparisons ▸ (refl s).comparisons,
    hblobs ▸ (refl s).blobs⟩
  rw [hrows]
  exact .append EventRow.Later.refl _ _

/-- A recording is only ever brought forward. -/
theorem setRecording (recordingId : String) {f : RecordingRow → RecordingRow}
    (hf : ∀ row, (f row).recordingId = row.recordingId)
    (hlater : ∀ row : RecordingRow, row.Later (f row)) :
    s.Extends (s.setRecording recordingId f hf) := by
  refine { refl s with recordings := ?_ }
  rw [rows_setRecording]
  refine .map (fun row => ?_) _
  split_ifs
  · exact hlater row
  · exact RecordingRow.Later.refl row

/-- An event row keeps what is not its place. -/
theorem setEvent (eventId : String) {f : EventRow → EventRow}
    (hf : ∀ row, (f row).eventId = row.eventId)
    (hlater : ∀ row : EventRow, row.Later (f row)) :
    s.Extends (s.setEvent eventId f hf) := by
  refine { refl s with events := ?_ }
  rw [rows_setEvent]
  refine .map (fun row => ?_) _
  split_ifs
  · exact hlater row
  · rfl

/-- A snapshot touches no table. -/
theorem putBlob (key : String) (document : Value) : s.Extends (s.putBlob key document).2 where
  recordings := (refl s).recordings
  events := (refl s).events
  comparisons := (refl s).comparisons
  blobs _ hfile := isSome_file?_putBlob key document hfile

/-- The commit of `finish_recording`. -/
theorem complete (recordingId : String) (events : List Event) (locator : List String) :
    s.Extends (s.complete recordingId events locator) := by
  have hplaced : s.Extends (s.placeEvents events) := by
    induction events generalizing s with
    | nil => exact refl s
    | cons e events ih =>
      -- an event row gets its place and its parent
      have hrow : s.Extends (s.setEvent e.eventId (placed e) (eventId_placed e)) :=
        setEvent e.eventId _ fun _ => rfl
      exact hrow.trans ih
  refine hplaced.trans (setRecording recordingId _ fun row => ?_)
  exact { RecordingRow.Later.refl row with status := .inr (.inl rfl), blobLocator := fun _ => rfl }

/-- The loop of `link_replay_events`. -/
theorem linkEvents (links : Dict String String) : s.Extends (s.linkEvents links) := by
  unfold Store.linkEvents
  induction links generalizing s with
  | nil => exact refl s
  | cons link links ih =>
    have hrow : s.Extends (s.setEvent link.2
        (fun row => { row with sourceEventId := some link.1 }) fun _ => rfl) :=
      setEvent link.2 _ fun _ => rfl
    exact hrow.trans ih

end Extends

end Store

/-! ### Operations -/

section Operations

open Prog

/-- Opening a recording adds its row. -/
theorem startRecording_extends (new : NewRecording) (hex : String) :
    (startRecording new hex).Guarantees Store.Extends :=
  (Guarantees.tx .refl fun _ _ _ h => .addRecording h).bind fun _ => trivial

/-- Appending events adds their rows. -/
theorem appendEvents_extends (recordingId : String) (events : List Event)
    (links : Dict String String) :
    (appendEvents recordingId events links).Guarantees Store.Extends := by
  unfold appendEvents
  split_ifs
  · trivial
  · exact (Guarantees.tx .refl fun _ _ _ h => .addEvents h).bind fun _ => trivial

/-- A failure ends a recording. -/
theorem failRecording_extends (recordingId reason : String) :
    (failRecording recordingId reason).Guarantees Store.Extends := by
  refine Guarantees.tx .refl fun s u s' h => ?_
  cases h
  refine .setRecording recordingId _ fun row => ?_
  -- the reason is appended to the title
  refine { RecordingRow.Later.refl row with status := .inr (.inr rfl), title := ?_ }
  rw [RecordingRow.failed, String.toList_append, String.toList_append, String.toList_append,
    List.append_assoc, List.append_assoc]
  exact List.prefix_append _ _

/-- Finishing gives the events their places and ends the recording. -/
theorem finishRecording_extends (order : RowOrder) (recordingId : String) :
    (finishRecording order recordingId).Guarantees Store.Extends := by
  unfold finishRecording
  refine (Guarantees.read _ .refl).bind fun found => ?_
  cases found with
  | none => trivial
  | some row =>
    refine (Guarantees.read _ .refl).bind fun events => ?_
    refine (Guarantees.call .refl fun _ => .putBlob _ _).bind fun locator => ?_
    refine (Guarantees.tx .refl fun s u s' h => ?_).bind fun _ => trivial
    cases h
    exact .complete recordingId events locator

/-- Reading changes nothing. -/
theorem getRecording_extends (order : RowOrder) (recordingId : String) :
    (getRecording order recordingId).Guarantees Store.Extends := by
  unfold getRecording
  refine (Guarantees.read _ .refl).bind fun found => ?_
  cases found with
  | none => trivial
  | some row => exact (Guarantees.read _ .refl).bind fun _ => trivial

/-- Links are written into the rows of a replay. -/
theorem linkReplayEvents_extends (recordingId : String) (links : Dict String String) :
    (linkReplayEvents recordingId links).Guarantees Store.Extends := by
  refine Guarantees.tx .refl fun s u s' h => ?_
  cases h
  exact .linkEvents links

/-- A comparison adds its rows. -/
theorem saveComparison_extends (recordingId : String) (results : List ComparisonResult) :
    (saveComparison recordingId results).Guarantees Store.Extends := by
  refine Guarantees.tx .refl fun s u s' h => ?_
  cases h
  exact { Store.Extends.refl s with comparisons := List.prefix_append _ _ }

/-- What a plugin answers does not touch the store. -/
theorem pluginResult_extends (result : Except Error Unit) :
    (pluginResult result).Guarantees Store.Extends := by
  cases result <;> trivial

/-- A result that is passed on does not touch the store. -/
theorem fromResult_extends {α : Type} (result : Except Error α) :
    (fromResult result).Guarantees Store.Extends := by
  cases result <;> trivial

/-- The pump only adds events. -/
theorem pump_extends (recordingId : String) (events : List Event) :
    (pump recordingId events).Guarantees Store.Extends := by
  induction events with
  | nil => trivial
  | cons e events ih => exact (appendEvents_extends recordingId [e] []).bind fun _ => ih

/-- Starting a session adds a row, and may fail it. -/
theorem startSession_extends (pluginName project title hex : String) (upstream : Option String)
    (plugin : String → PluginRun) :
    (startSession pluginName project title hex upstream plugin).Guarantees Store.Extends := by
  refine (startRecording_extends _ hex).bind fun recordingId => ?_
  refine Guarantees.bind ?_ fun _ => trivial
  refine (pluginResult_extends _).tryCatch fun exc => ?_
  exact (failRecording_extends recordingId exc.text).bind fun _ => trivial

/-- Closing a session finishes or fails a row. -/
theorem closeSession_extends (order : RowOrder) (recordingId : String)
    (stopped : Except Error Unit) :
    (closeSession order recordingId stopped).Guarantees Store.Extends :=
  (pluginResult_extends stopped).bind fun _ => finishRecording_extends order recordingId

/-- A capture extends the store by what its steps add. -/
theorem captureRecording_extends (order : RowOrder) (project title pluginName hex : String)
    (plugin : String → PluginRun) :
    (captureRecording order project title pluginName hex plugin).Guarantees Store.Extends := by
  refine (startRecording_extends _ hex).bind fun recordingId => ?_
  refine Guarantees.bind ?_ fun _ => finishRecording_extends order recordingId
  refine Guarantees.tryCatch ?_ fun exc => ?_
  · exact (pluginResult_extends _).bind fun _ =>
      (pump_extends recordingId _).bind fun _ => pluginResult_extends _
  · exact (failRecording_extends recordingId exc.text).bind fun _ => trivial

/-- Ingesting only adds events. -/
theorem ingestEvents_extends (recordingId : String) (events : List Event) :
    (ingestEvents recordingId events).Guarantees Store.Extends := by
  refine (Guarantees.read _ .refl).bind fun status => ?_
  split
  · trivial
  · exact (appendEvents_extends recordingId _ []).bind fun _ => trivial

/-- An import adds a row and its events. -/
theorem importRecording_extends (models : Models) (order : RowOrder) (hex recordingHex : String)
    (eventHexes : List String) (doc : Dict String Value) :
    (importRecording models order hex recordingHex eventHexes doc).Guarantees Store.Extends := by
  unfold importRecording
  split
  · trivial
  · refine (Guarantees.read _ .refl).bind fun status => ?_
    refine (startRecording_extends _ hex).bind fun _ => ?_
    exact (appendEvents_extends _ _ []).bind fun _ => finishRecording_extends order _

/-- Failing a replay ends its row. -/
theorem failReplay_extends {α : Type} (replayId : String) (e : Error) :
    (failReplay replayId e : Prog Store Error α).Guarantees Store.Extends := by
  cases e with
  | replayError message => exact (failRecording_extends replayId message).bind fun _ => trivial
  | _ => trivial

/-- A replay extends the store by what its steps add. -/
theorem runReplay_extends (cfg : Config) (order : RowOrder) (env : ReplayEnv)
    (options : ReplayOptions) (recordingId : String) :
    (runReplay cfg order env options recordingId).Guarantees Store.Extends := by
  refine (fromResult_extends _).bind fun _ => ?_
  refine (getRecording_extends order recordingId).bind fun found => ?_
  cases found with
  | none => trivial
  | some source =>
    refine (startRecording_extends _ env.hex).bind fun _ => ?_
    refine ((fromResult_extends _).tryCatch (failReplay_extends _)).bind fun replayed => ?_
    refine (appendEvents_extends _ _ []).bind fun _ => ?_
    refine (finishRecording_extends order _).bind fun run => ?_
    refine (linkReplayEvents_extends _ _).bind fun _ => ?_
    exact (saveComparison_extends _ _).bind fun _ => trivial

/-- Every operation extends the store, step by step. -/
theorem Operation.extends {α : Type} {p : Prog Store Error α} (h : Operation p) :
    p.Guarantees Store.Extends := by
  cases h with
  | startSession => exact startSession_extends _ _ _ _ _ _
  | pump => exact pump_extends _ _
  | closeSession => exact closeSession_extends _ _ _
  | captureRecording => exact captureRecording_extends _ _ _ _ _ _
  | ingestEvents => exact ingestEvents_extends _ _
  | importRecording => exact importRecording_extends _ _ _ _ _ _
  | finishRecording => exact finishRecording_extends _ _
  | runReplay => exact runReplay_extends _ _ _ _ _

/-- No operation of the API takes anything back. -/
theorem IsTask.extends {p : Prog Store Error Unit} (h : IsTask p) :
    p.Guarantees Store.Extends := by
  obtain ⟨h⟩ := h
  exact h.extends.bind fun _ => trivial

end Operations

/-! ### What a reader sees later -/

/-- What a recording that was read can be when it is read again. -/
structure Recording.Later (r r' : Recording) : Prop where
  recordingId : r'.recordingId = r.recordingId
  project : r'.project = r.project
  kind : r'.kind = r.kind
  capturePlugin : r'.capturePlugin = r.capturePlugin
  sourceRecordingId : r'.sourceRecordingId = r.sourceRecordingId
  target : r'.target = r.target
  status : r'.status = r.status ∨ r'.status = .completed ∨ r'.status = .failed
  title : r.title.toList <+: r'.title.toList
  /-- Every event is still there, the same but for its place and its parent. -/
  events : (r.events.map Event.bare).Subperm (r'.events.map Event.bare)

namespace Store.Extends

variable {s s' : Store}

/-- A recording is found again. -/
theorem find? (h : s.Extends s') {recordingId : String} {row : RecordingRow}
    (hrow : s.recordings.find? recordingId = some row) :
    ∃ row', s'.recordings.find? recordingId = some row' ∧ row.Later row' := by
  obtain ⟨hmem, hid⟩ := Table.find?_eq_some_iff.mp hrow
  obtain ⟨row', hrow', hlater⟩ := h.recordings.exists_mem hmem
  exact ⟨row', Table.find?_eq_some_iff.mpr ⟨hrow', hlater.recordingId.trans hid⟩, hlater⟩

/-- The events of a recording are found again. -/
theorem eventsFor (h : s.Extends s') (order order' : RowOrder) (recordingId : String) :
    ((s.eventsFor order recordingId).map Event.bare).Subperm
      ((s'.eventsFor order' recordingId).map Event.bare) := by
  -- the rows that were there come first, and the events in them are the same
  have hprefix : s.events.rows.map (fun row => row.event.bare) <+:
      s'.events.rows.map (fun row => row.event.bare) := h.events.map_prefix fun _ _ hlater => hlater
  have hkept := hprefix.filter fun e => decide (e.recordingId = recordingId)
  rw [List.filter_map, List.filter_map] at hkept
  -- a reader gets the rows of the recording, in some order
  have hread : ∀ (order : RowOrder) (s : Store),
      ((s.eventsFor order recordingId).map Event.bare).Perm
        ((s.eventRows recordingId).map fun row => row.event.bare) := by
    intro order s
    have hperm := (s.eventsFor_perm order recordingId).map Event.bare
    rwa [List.map_map] at hperm
  exact ((hread order s).subperm_right.mpr hkept.sublist.subperm).trans
    (hread order' s').symm.subperm

/-- A reader that comes again sees what it saw. -/
theorem getRecording (h : s.Extends s') (order order' : RowOrder) {recordingId : String}
    {r : Recording}
    (hread : ((InfraReplay.getRecording order recordingId).run s).1 = .ok (some r)) :
    ∃ r', ((InfraReplay.getRecording order' recordingId).run s').1 = .ok (some r') ∧
      r.Later r' := by
  -- a read of a row that is there returns it
  have hrun : ∀ (order : RowOrder) (s : Store) (row : RecordingRow),
      s.recordings.find? recordingId = some row →
        ((InfraReplay.getRecording order recordingId).run s).1 =
          .ok (some (rowToRecording row (s.eventsFor order recordingId))) := by
    intro order s row hrow
    rw [InfraReplay.getRecording, Prog.run_bind_ok (Prog.run_read _ s), hrow]
    rfl
  cases hrow : s.recordings.find? recordingId with
  | none =>
    rw [InfraReplay.getRecording, Prog.run_bind_ok (Prog.run_read _ s), hrow] at hread
    cases hread
  | some row =>
    -- the row is still there, only later
    obtain ⟨row', hrow', hlater⟩ := h.find? hrow
    obtain rfl := Option.some.inj (Except.ok.inj ((hrun order s row hrow).symm.trans hread))
    exact ⟨_, hrun order' s' row' hrow', hlater.recordingId, hlater.project, hlater.kind,
      hlater.capturePlugin, hlater.sourceRecordingId, hlater.target, hlater.status, hlater.title,
      h.eventsFor order order' recordingId⟩

end Store.Extends

/-- **What was recorded stays.** Run any operations against the store, with tasks coming in at any
time and steps failing. What a reader is told of a recording at one moment it is told again at any
later one: the recording is there with the same identity, it is open only if it was, every event it
had is there unaltered but for its place and its parent, and a replay's results are continued. -/
theorem reads_of_later {task : Prog Store Error Unit} (htask : IsTask task)
    {turns turns' : List (Company.Turn Error {p : Prog Store Error Unit // IsTask p})}
    {c c' : Company Store Error Unit Unit}
    (hrun : Machine.run (Company.step Subtype.val) ⟨Store.empty, task, []⟩ turns = some c)
    (hlater : Machine.run (Company.step Subtype.val) c turns' = some c')
    (order order' : RowOrder) (recordingId : String) :
    (∀ r, ((getRecording order recordingId).run c.state).1 = .ok (some r) →
      ∃ r', ((getRecording order' recordingId).run c'.state).1 = .ok (some r') ∧ r.Later r') ∧
    ∃ rows rows', ((getComparison recordingId).run c.state).1 = .ok rows ∧
      ((getComparison recordingId).run c'.state).1 = .ok rows' ∧ rows <+: rows' := by
  have hstart : ∀ p : {p : Prog Store Error Unit // IsTask p},
      p.1.Guarantees Store.Extends := fun p => p.2.extends
  have htrans : ∀ s s' s'' : Store, s.Extends s' → s'.Extends s'' → s.Extends s'' :=
    fun _ _ _ h h' => h.trans h'
  have hinit : (⟨Store.empty, task, []⟩ : Company Store Error Unit Unit).Guards Store.Extends :=
    ⟨htask.extends, by simp⟩
  -- up to the first moment, and from there on
  obtain ⟨-, hc⟩ := hinit.run .refl htrans hstart hrun
  obtain ⟨h, -⟩ := hc.run .refl htrans hstart hlater
  exact ⟨fun r hread => h.getRecording order order' hread, _, _, rfl, rfl,
    h.comparisons.filter _⟩

/-- A capture of one event, read when the event is stored and when the recording is finished. -/
theorem reads_of_later_capture :
    let capture := captureRecording .bySequence "default" "" "mock" "1" fun recordingId =>
      { events :=
          [{ Event.brief .httpRequest "evt_1" "corr_1" 0 with recordingId := recordingId }] }
    ∃ c c' : Company Store Error Unit Unit,
      Machine.run (Company.step (Subtype.val : {p // IsTask p} → _))
          ⟨Store.empty, capture.discard, []⟩ [.task, .task] = some c ∧
        Machine.run (Company.step (Subtype.val : {p // IsTask p} → _)) c
          [.task, .task, .task, .task] = some c' ∧
        (∀ r, ((getRecording .bySequence "rec_1").run c.state).1 = .ok (some r) →
          ∃ r', ((getRecording .latestFirst "rec_1").run c'.state).1 = .ok (some r') ∧
            r.Later r') ∧
        ∃ rows rows', ((getComparison "rec_1").run c.state).1 = .ok rows ∧
          ((getComparison "rec_1").run c'.state).1 = .ok rows' ∧ rows <+: rows' := by
  intro capture
  have hruns : ∃ c c' : Company Store Error Unit Unit,
      Machine.run (Company.step (Subtype.val : {p // IsTask p} → _))
          ⟨Store.empty, capture.discard, []⟩ [.task, .task] = some c ∧
        Machine.run (Company.step (Subtype.val : {p // IsTask p} → _)) c
          [.task, .task, .task, .task] = some c' := ⟨_, _, rfl, rfl⟩
  obtain ⟨c, c', hrun, hlater⟩ := hruns
  exact ⟨c, c', hrun, hlater,
    reads_of_later (.intro (.captureRecording _ _ _ _ _ _)) hrun hlater _ _ _⟩

end InfraReplay
