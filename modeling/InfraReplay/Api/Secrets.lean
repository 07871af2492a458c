import InfraReplay.Api.Tasks
import InfraReplay.Recording.Reimport

/-!
# Known secrets are never stored

Every event goes through `append_events`, which redacts it, and snapshots and comparisons are made
of stored events only. `Store.Sound` is the invariant; one lemma for each operation says that its
atomic steps keep it and that what it reads is masked, whatever other tasks do in between.
-/

namespace InfraReplay

open Python

/-- Every value under a sensitive key is masked in the payloads, in the snapshots and in the
diffs. -/
structure Store.Masked (s : Store) : Prop where
  events : ∀ row ∈ s.events.rows, row.event.IsMasked
  blobs : ∀ path document, s.blobs.file? path = some document → InfraReplay.Masked document
  comparisons : ∀ r ∈ s.comparisons, InfraReplay.Masked (.dict r.diff)

/-- The invariant: nothing is stored unmasked, and no recording has an empty id. -/
structure Store.Sound (s : Store) : Prop extends Store.Masked s where
  named : ∀ row ∈ s.recordings.rows, row.recordingId ≠ ""

/-- An empty store holds no secret. -/
theorem Store.sound_empty : Store.empty.Sound where
  events := by simp [Store.empty, Table.empty]
  blobs path document h := by
    rw [Store.empty, BlobRoot.file?_empty] at h
    cases h
  comparisons := by simp [Store.empty]
  named := by simp [Store.empty, Table.empty]

/-- The events of a recording that was read are masked. -/
def Recording.EventsMasked (r : Recording) : Prop := ∀ e ∈ r.events, e.IsMasked

/-! ### Values made of masked values -/

/-- A dictionary without sensitive keys is masked when its values are. -/
theorem masked_dict_of_plain {items : List (String × Value)} (keys : List String)
    (hkeys : items.map Prod.fst = keys) (hplain : ∀ k ∈ keys, isSensitive k = false)
    (h : ∀ p ∈ items, Masked p.2) : Masked (.dict items) := by
  rw [masked_dict]
  intro p hp
  refine ⟨fun hk => ?_, h p hp⟩
  have hfalse : isSensitive p.1 = false := hplain p.1 (hkeys ▸ List.mem_map_of_mem hp)
  rw [hfalse] at hk
  cases hk

/-- A text or `None` has no key to mask. -/
theorem masked_optionalStr (s : Option String) : Masked (optionalStr s) := by
  cases s
  · exact masked_none
  · exact masked_str _

/-- A dumped event is masked when its payload is. -/
theorem masked_dump {e : Event} (h : e.IsMasked) : Masked (.dict e.dump) := by
  refine masked_dict_of_plain ["schema_version", "recording_id", "event_id",
    "parent_event_id", "sequence", "timestamp_ns", "duration_ns", "event_type", "service",
    "correlation_id", "trace_id", "span_id", "payload"] rfl (by decide) ?_
  have hpayload : Masked (.dict e.payload.jsonMode.items) := masked_jsonMode h
  simp [Event.dump, masked_optionalStr, hpayload]

/-- A snapshot is masked when its events are. -/
theorem masked_snapshotDoc (row : RecordingRow) {events : List Event}
    (h : ∀ e ∈ events, e.IsMasked) : Masked (snapshotDoc row events) := by
  refine masked_dict_of_plain ["recording_id", "project", "kind", "title", "events"] rfl
    (by decide) ?_
  have hevents : Masked (.list (events.map fun e => .dict e.dump)) := by
    rw [masked_list]
    intro v hv
    obtain ⟨e, he, rfl⟩ := List.mem_map.mp hv
    exact masked_dump (h e he)
  simp [hevents]

/-- Correlating changes no payload. -/
theorem isMasked_correlate {events : List Event} (h : ∀ e ∈ events, e.IsMasked) :
    ∀ e ∈ correlate events, e.IsMasked := by
  intro e he
  obtain ⟨e₀, he₀, heq⟩ := mem_correlate he
  have hpayload : e.payload = e₀.payload := by rw [heq]
  unfold Event.IsMasked
  rw [hpayload]
  exact h e₀ he₀

/-- The diff of one field holds the two sides. -/
theorem masked_diffEntry {key : String} {original replayed : Value}
    (hkey : isSensitive key = false) (ho : Masked original) (hr : Masked replayed) :
    ∀ p ∈ diffEntry key original replayed, isSensitive p.1 = false ∧ Masked p.2 := by
  unfold diffEntry
  intro p hp
  split_ifs at hp
  · cases hp
  · obtain rfl := List.mem_singleton.mp hp
    refine ⟨hkey, masked_dict_of_plain ["original", "replayed"] rfl (by decide) ?_⟩
    simp [ho, hr]

/-- The diff of a comparator is masked when what it compares and the replay are. -/
theorem masked_compareFields {eventType : String} {fields : List (String × Value × Value)}
    {original replayed : Event} (hreplayed : replayed.IsMasked)
    (hfields : ∀ f ∈ fields, isSensitive f.1 = false ∧ Masked f.2.1 ∧ Masked f.2.2) :
    Masked (.dict (compareFields eventType fields original replayed).diff) := by
  unfold compareFields
  dsimp only
  split_ifs
  · -- the replay carries an error, which is quoted from its payload
    refine masked_dict_of_plain ["error"] rfl (by decide) ?_
    simpa using masked_getD hreplayed "error"
  · exact masked_dict.mpr (by simp)
  · -- one entry for each field that differs
    rw [masked_dict]
    intro p hp
    obtain ⟨f, hf, hpf⟩ := List.mem_flatMap.mp hp
    obtain ⟨hkey, ho, hr⟩ := hfields f hf
    obtain ⟨hplain, hval⟩ := masked_diffEntry hkey ho hr p hpf
    exact ⟨fun hk => by simp [hplain] at hk, hval⟩

/-- The two built-in comparators write masked diffs. -/
theorem masked_compare {cfg : Config} {eventType : String} {comparator : ComparatorPlugin}
    (h : comparatorFor (comparators cfg) eventType = some comparator) {original replayed : Event}
    (ho : original.IsMasked) (hr : replayed.IsMasked) :
    Masked (.dict (comparator.compare original replayed).diff) := by
  have hside : ∀ key, Masked (normalize cfg (original.payload.getD key)) ∧
      Masked (normalize cfg (replayed.payload.getD key)) :=
    fun key => ⟨masked_normalize (masked_getD ho key), masked_normalize (masked_getD hr key)⟩
  have hplain : ∀ key ∈ ["status", "body", "rows_affected", "rows"], isSensitive key = false := by
    decide
  have hmem : comparator ∈ comparators cfg := List.mem_of_find?_eq_some h
  simp only [comparators, List.mem_cons, List.not_mem_nil, or_false] at hmem
  rcases hmem with rfl | rfl
  · -- the HTTP comparator: status and body
    refine masked_compareFields hr fun f hf => ?_
    simp only [List.mem_cons, List.not_mem_nil, or_false] at hf
    rcases hf with rfl | rfl
    · exact ⟨hplain "status" (by simp), masked_getD ho "status", masked_getD hr "status"⟩
    · exact ⟨hplain "body" (by simp), hside "body"⟩
  · -- the SQL comparator: row count and rows
    refine masked_compareFields hr fun f hf => ?_
    simp only [List.map_cons, List.map_nil, List.mem_cons, List.not_mem_nil, or_false] at hf
    rcases hf with rfl | rfl
    · exact ⟨hplain "rows_affected" (by simp), hside "rows_affected"⟩
    · exact ⟨hplain "rows" (by simp), hside "rows"⟩

/-- A partner is one of the replayed events. -/
theorem mem_of_partner {replayed : List Event} {links : Dict String String} {src event : Event}
    (h : partner (replayById replayed) links src = some event) : event ∈ replayed := by
  have hget : ∃ eid, (replayById replayed).get? eid = some event := by
    unfold partner at h
    split at h
    · split_ifs at h
      exact ⟨_, h⟩
    · cases h
  obtain ⟨eid, hget⟩ := hget
  have hmem := Dict.mem_of_mem_ofPairs (Dict.mem_of_get?_eq_some hget)
  obtain ⟨e, he, heq⟩ := List.mem_map.mp hmem
  cases heq
  exact he

/-- A comparison of masked recordings is masked. -/
theorem masked_compareRun (cfg : Config) {original : Recording} {replayed : List Event}
    (links : Dict String String) (ho : original.EventsMasked)
    (hr : ∀ e ∈ replayed, e.IsMasked) :
    ∀ r ∈ compareRun (comparators cfg) original replayed links, Masked (.dict r.diff) := by
  rw [compareRun_eq]
  intro r hmem
  rcases List.mem_append.mp hmem with hmem | hmem
  · -- a verdict on a pair, or a missing original, whose diff is empty
    obtain ⟨src, hsrc, hresult⟩ := List.mem_filterMap.mp hmem
    obtain ⟨comparator, hfor, rfl⟩ := Option.map_eq_some_iff.mp hresult
    cases hpartner : partner (replayById replayed) links src with
    | none => exact masked_dict.mpr (by simp [missingResult])
    | some event =>
      exact masked_compare hfor (ho src hsrc) (hr event (mem_of_partner hpartner))
  · obtain ⟨event, -, rfl⟩ := List.mem_map.mp hmem
    exact masked_dict.mpr (by simp [newResult])

/-! ### Steps -/

namespace Store.Sound

variable {s s' : Store}

/-- Opening a recording under a proper id. -/
theorem addRecording (hs : s.Sound) {row : RecordingRow} {u : Unit} (hid : row.recordingId ≠ "")
    (h : s.addRecording row = .ok (u, s')) : s'.Sound := by
  obtain ⟨hrows, hevents, hcomparisons, hblobs⟩ := addRecording_eq_ok h
  refine { hs with
    events := hevents ▸ hs.events
    blobs := hblobs ▸ hs.blobs
    comparisons := hcomparisons ▸ hs.comparisons
    named := fun row' hrow' => ?_ }
  rw [hrows] at hrow'
  rcases List.mem_append.mp hrow' with hrow' | hrow'
  · exact hs.named row' hrow'
  · rwa [List.mem_singleton.mp hrow']

/-- Adding redacted rows. -/
theorem addEvents (hs : s.Sound) {events : List Event} {links : Dict String String} {u : Unit}
    (h : s.addEvents (redactedRows events links) = .ok (u, s')) : s'.Sound := by
  obtain ⟨hrows, hrecordings, hcomparisons, hblobs⟩ := addEvents_eq_ok h
  refine
    { events := fun row hrow => ?_
      blobs := hblobs ▸ hs.blobs
      comparisons := hcomparisons ▸ hs.comparisons
      named := hrecordings ▸ hs.named }
  rw [hrows] at hrow
  rcases List.mem_append.mp hrow with hrow | hrow
  · exact hs.events row hrow
  · obtain ⟨clean, hclean, rfl⟩ := List.mem_map.mp hrow
    obtain ⟨e, -, rfl⟩ := List.mem_map.mp hclean
    exact isMasked_redact e

/-- Changing a recording row under its id. -/
theorem setRecording (hs : s.Sound) (recordingId : String) (f : RecordingRow → RecordingRow)
    (hf : ∀ row, (f row).recordingId = row.recordingId) :
    (s.setRecording recordingId f hf).Sound where
  events := hs.events
  blobs := hs.blobs
  comparisons := hs.comparisons
  named row hrow := by
    rw [rows_setRecording] at hrow
    obtain ⟨row₀, hrow₀, rfl⟩ := List.mem_map.mp hrow
    split_ifs
    · rw [hf]
      exact hs.named row₀ hrow₀
    · exact hs.named row₀ hrow₀

/-- Changing an event row but for its payload. -/
theorem setEvent (hs : s.Sound) (eventId : String) (f : EventRow → EventRow)
    (hf : ∀ row, (f row).eventId = row.eventId)
    (hpayload : ∀ row, (f row).event.payload = row.event.payload) :
    (s.setEvent eventId f hf).Sound where
  events row hrow := by
    rw [rows_setEvent] at hrow
    obtain ⟨row₀, hrow₀, rfl⟩ := List.mem_map.mp hrow
    split_ifs
    · unfold Event.IsMasked
      rw [hpayload]
      exact hs.events row₀ hrow₀
    · exact hs.events row₀ hrow₀
  blobs := hs.blobs
  comparisons := hs.comparisons
  named := hs.named

/-- Writing a masked document. -/
theorem putBlob (hs : s.Sound) (key : String) {document : Value}
    (hdocument : InfraReplay.Masked document) : (s.putBlob key document).2.Sound := by
  rcases hput : s.putBlob key document with ⟨e | path, s'⟩
  · obtain ⟨-, b, rfl, hfiles⟩ := putBlob_eq_error hput
    exact { hs with blobs := fun p document' hfile => hs.blobs p document' (hfiles p ▸ hfile) }
  · obtain ⟨-, b, rfl, hfiles⟩ := putBlob_eq_ok hput
    refine { hs with blobs := fun p document' hfile => ?_ }
    rw [hfiles] at hfile
    split_ifs at hfile
    · exact Option.some.inj hfile ▸ hdocument
    · exact hs.blobs p document' hfile

/-- The commit of `finish_recording`. -/
theorem complete (hs : s.Sound) (recordingId : String) (events : List Event)
    (locator : List String) : (s.complete recordingId events locator).Sound := by
  refine setRecording ?_ _ _ _
  -- the loop over the correlated events changes places and parents, no payload
  induction events generalizing s with
  | nil => exact hs
  | cons e events ih => exact ih (hs.setEvent _ _ _ fun _ => rfl)

/-- The loop of `link_replay_events`. -/
theorem linkEvents (hs : s.Sound) (links : Dict String String) : (s.linkEvents links).Sound := by
  unfold Store.linkEvents
  induction links generalizing s with
  | nil => exact hs
  | cons link links ih => exact ih (hs.setEvent _ _ _ fun _ => rfl)

end Store.Sound

/-! ### Operations -/

section Operations

open Prog

/-- A new row holds no payload. -/
theorem startRecording_safe (new : NewRecording) (hex : String) :
    (startRecording new hex).Safe Store.Sound fun _ => True :=
  Safe.tx_bind fun _ _ _ hs h => ⟨hs.addRecording (new.chosenId_ne hex) h, Safe.pure trivial⟩

/-- Appending redacts. -/
theorem appendEvents_safe (recordingId : String) (events : List Event)
    (links : Dict String String) :
    (appendEvents recordingId events links).Safe Store.Sound fun _ => True := by
  unfold appendEvents
  split_ifs
  · exact Safe.pure trivial
  · exact Safe.tx_bind fun _ _ _ hs h => ⟨hs.addEvents h, Safe.pure trivial⟩

/-- Failing a recording writes its row only. -/
theorem failRecording_safe (recordingId reason : String) :
    (failRecording recordingId reason).Safe Store.Sound fun _ => True := by
  refine Safe.tx fun s u s' hs h => ?_
  cases h
  exact ⟨hs.setRecording _ _ _, trivial⟩

/-- The events of a recording in the store are masked. -/
theorem Store.Sound.eventsFor {s : Store} (hs : s.Sound) (order : RowOrder) (recordingId : String) :
    ∀ e ∈ s.eventsFor order recordingId, e.IsMasked := by
  intro e he
  obtain ⟨row, hrow, rfl, -⟩ := Store.mem_eventsFor.mp he
  exact hs.events row hrow

/-- A recording whose events were correlated is finished. -/
theorem isFinished_correlate {s : Store} {row : RecordingRow} (order : RowOrder) (hs : s.Sound)
    (hnamed : row.recordingId ≠ "") :
    (rowToRecording { row with status := .completed }
      (correlate (s.eventsFor order row.recordingId))).IsFinished where
  finished := finished_correlate _
  masked := isMasked_correlate (hs.eventsFor order row.recordingId)
  owned e he := by
    obtain ⟨e₀, he₀, heq⟩ := mem_correlate he
    obtain ⟨row₀, -, -, hid⟩ := Store.mem_eventsFor.mp he₀
    rw [heq]
    exact hid
  nodup := (map_eventId_correlate_perm _).nodup_iff.mpr
    (Store.nodup_eventsFor order row.recordingId s)
  named := hnamed

/-- What `finish_recording` returns is finished, whatever ran between its steps. -/
theorem finishRecording_safe (order : RowOrder) (recordingId : String) :
    (finishRecording order recordingId).Safe Store.Sound Recording.IsFinished := by
  unfold finishRecording
  refine Safe.read_bind fun s hs => ?_
  cases hrow : s.recordings.find? recordingId with
  | none => exact Safe.throw _
  | some row =>
    obtain ⟨hmem, rfl⟩ := Table.find?_eq_some_iff.mp hrow
    -- `s`, `s₁`, `s₂` and `s₄` are what the four steps see, and other tasks ran in between:
    -- the events may be read from a later store than the row
    refine Safe.read_bind fun s₁ hs₁ => ?_
    have hmasked := isMasked_correlate (hs₁.eventsFor order row.recordingId)
    refine Safe.call_bind (fun s₂ hs₂ => hs₂.putBlob _ (masked_snapshotDoc row hmasked))
      fun s₂ path s₃ hs₂ hput => ?_
    refine Safe.tx_bind fun s₄ u s₅ hs₄ hcommit => ?_
    cases hcommit
    refine ⟨hs₄.complete _ _ _, Safe.pure ?_⟩
    exact isFinished_correlate order hs₁ (hs.named row hmem)

/-- What is read back is masked, since it was stored masked. -/
theorem getRecording_safe (order : RowOrder) (recordingId : String) :
    (getRecording order recordingId).Safe Store.Sound
      fun r => ∀ recording, r = some recording → recording.EventsMasked := by
  unfold getRecording
  refine Safe.read_bind fun s _ => ?_
  cases s.recordings.find? recordingId with
  | none => exact Safe.pure fun _ h => by cases h
  | some row =>
    refine Safe.read_bind fun s hs => Safe.pure fun recording h => ?_
    cases h
    exact hs.eventsFor order recordingId

/-- Reading a status writes nothing. -/
theorem getStatus_safe (recordingId : String) :
    (getStatus recordingId).Safe Store.Sound fun _ => True :=
  Safe.read fun _ _ => trivial

/-- Linking writes the links only. -/
theorem linkReplayEvents_safe (replayId : String) (links : Dict String String) :
    (linkReplayEvents replayId links).Safe Store.Sound fun _ => True := by
  refine Safe.tx fun s u s' hs h => ?_
  cases h
  exact ⟨hs.linkEvents links, trivial⟩

/-- A comparison is saved safely when its diffs are masked. -/
theorem saveComparison_safe (replayId : String) {results : List ComparisonResult}
    (hresults : ∀ r ∈ results, Masked (.dict r.diff)) :
    (saveComparison replayId results).Safe Store.Sound fun _ => True := by
  refine Safe.tx fun s u s' hs h => ?_
  cases h
  refine ⟨{ hs with comparisons := fun r hr => ?_ }, trivial⟩
  rcases List.mem_append.mp hr with hr | hr
  · exact hs.comparisons r hr
  · obtain ⟨r₀, hr₀, rfl⟩ := List.mem_map.mp hr
    exact hresults r₀ hr₀

/-- What a plugin answers does not touch the store. -/
theorem pluginResult_safe (result : Except Error Unit) :
    (pluginResult result).Safe Store.Sound fun _ => True := by
  cases result with
  | ok u => exact Safe.pure trivial
  | error e => exact Safe.throw e

/-- The pump appends one event after the other. -/
theorem pump_safe (recordingId : String) (events : List Event) :
    (pump recordingId events).Safe Store.Sound fun _ => True := by
  induction events with
  | nil => exact Safe.pure trivial
  | cons e events ih => exact (appendEvents_safe recordingId [e] []).bind fun _ _ => ih

/-- Starting a session writes a row, and fails it when the plugin raises. -/
theorem startSession_safe (pluginName project title hex : String) (upstream : Option String)
    (plugin : String → PluginRun) :
    (startSession pluginName project title hex upstream plugin).Safe Store.Sound fun _ => True := by
  refine (startRecording_safe _ hex).bind fun recordingId _ => ?_
  refine Safe.bind (Safe.tryCatch (pluginResult_safe _) fun e => ?_) fun _ _ => Safe.pure trivial
  -- the handler marks the recording as failed and raises again
  exact (failRecording_safe recordingId e.text).bind fun _ _ => Safe.throw _

/-- Closing a session finishes or fails its row. -/
theorem closeSession_safe (order : RowOrder) (recordingId : String)
    (stopped : Except Error Unit) :
    (closeSession order recordingId stopped).Safe Store.Sound fun _ => True :=
  (pluginResult_safe stopped).bind fun _ _ =>
    (finishRecording_safe order recordingId).mono fun _ _ => trivial

/-- A one-shot capture is a start, a pump and an end. -/
theorem captureRecording_safe (order : RowOrder) (project title pluginName hex : String)
    (plugin : String → PluginRun) :
    (captureRecording order project title pluginName hex plugin).Safe Store.Sound
      fun _ => True := by
  refine (startRecording_safe _ hex).bind fun recordingId _ => ?_
  have hdrive : (do
      pluginResult (plugin recordingId).started
      pump recordingId (plugin recordingId).events
      pluginResult (plugin recordingId).stopped).Safe Store.Sound fun _ => True :=
    (pluginResult_safe _).bind fun _ _ =>
      (pump_safe recordingId _).bind fun _ _ => pluginResult_safe _
  -- whatever the plugin raises, the recording is marked as failed first
  refine (hdrive.tryCatch fun e => ?_).bind fun _ _ =>
    (finishRecording_safe order recordingId).mono fun _ _ => trivial
  exact (failRecording_safe recordingId e.text).bind fun _ _ => Safe.throw e

/-- Ingesting appends, or refuses. -/
theorem ingestEvents_safe (recordingId : String) (events : List Event) :
    (ingestEvents recordingId events).Safe Store.Sound fun _ => True := by
  refine (getStatus_safe recordingId).bind fun status _ => ?_
  cases ingestRefusal recordingId status with
  | some e => exact Safe.throw e
  | none => exact (appendEvents_safe recordingId _ []).bind fun _ _ => Safe.pure trivial

/-- Opening an import writes a row only. -/
theorem openImported_safe (order : RowOrder) (hex : String) (recording : Recording) :
    (openImported order hex recording).Safe Store.Sound fun _ => True := by
  refine (startRecording_safe _ hex).bind fun _ _ => ?_
  refine (appendEvents_safe recording.recordingId _ []).bind fun _ _ => ?_
  exact (finishRecording_safe order recording.recordingId).mono fun _ _ => trivial

/-- An import appends the bundle's events through the redactor too. -/
theorem importRecording_safe (models : Models) (order : RowOrder) (hex recordingHex : String)
    (eventHexes : List String) (doc : Dict String Value) :
    (importRecording models order hex recordingHex eventHexes doc).Safe Store.Sound
      fun _ => True := by
  unfold importRecording
  split
  · exact Safe.throw _
  · exact (getStatus_safe _).bind fun _ _ => openImported_safe order hex _

/-- A result that is passed on does not touch the store. -/
theorem fromResult_safe {α : Type} (result : Except Error α) :
    (fromResult result).Safe Store.Sound fun _ => True := by
  cases result with
  | ok a => exact Safe.pure trivial
  | error e => exact Safe.throw e

/-- A replay that fails writes its row only. -/
theorem failReplay_safe {α : Type} (replayId : String) (e : Error) :
    (failReplay (α := α) replayId e).Safe Store.Sound fun _ => True := by
  unfold failReplay
  split
  · exact (failRecording_safe replayId _).bind fun _ _ => Safe.throw _
  · exact Safe.throw _

/-- A replay appends whatever the target answered, but through the redactor, and compares only
what it read back. -/
theorem replaySource_safe (cfg : Config) (order : RowOrder) (env : ReplayEnv)
    (options : ReplayOptions) (recordingId : String) {source : Recording}
    (hsource : source.EventsMasked) :
    (replaySource cfg order env options recordingId source).Safe Store.Sound fun _ => True := by
  refine (startRecording_safe _ env.hex).bind fun _ _ => ?_
  refine ((fromResult_safe _).tryCatch fun e => failReplay_safe _ e).bind fun replayed _ => ?_
  refine (appendEvents_safe _ replayed []).bind fun _ _ => ?_
  -- the comparison is made of the finished run, not of what the target sent
  refine (finishRecording_safe order _).bind fun run hrun => ?_
  refine (linkReplayEvents_safe _ _).bind fun _ _ => ?_
  refine (saveComparison_safe _ ?_).bind fun _ _ => Safe.pure trivial
  exact masked_compareRun cfg _ hsource hrun.masked

/-- Every path through `run_replay` is safe. -/
theorem runReplay_safe (cfg : Config) (order : RowOrder) (env : ReplayEnv)
    (options : ReplayOptions) (recordingId : String) :
    (runReplay cfg order env options recordingId).Safe Store.Sound fun _ => True := by
  refine (fromResult_safe _).bind fun _ _ => ?_
  refine (getRecording_safe order recordingId).bind fun source hsource => ?_
  cases source with
  | none => exact Safe.throw _
  | some source => exact replaySource_safe cfg order env options recordingId (hsource source rfl)

/-- Every step of every operation keeps the invariant. -/
theorem Operation.safe {α : Type} {p : Prog Store Error α} (h : Operation p) :
    p.Safe Store.Sound fun _ => True := by
  cases h with
  | startSession => exact startSession_safe _ _ _ _ _ _
  | pump => exact pump_safe _ _
  | closeSession => exact closeSession_safe _ _ _
  | captureRecording => exact captureRecording_safe _ _ _ _ _ _
  | ingestEvents => exact ingestEvents_safe _ _
  | importRecording => exact importRecording_safe _ _ _ _ _ _
  | finishRecording => exact (finishRecording_safe _ _).mono fun _ _ => trivial
  | runReplay => exact runReplay_safe _ _ _ _ _

end Operations

/-- The invariant holds in every reachable store. -/
theorem Reachable.sound {s : Store} (h : Reachable s) : s.Sound := by
  obtain ⟨tasks, hruns⟩ := h
  have hinit : ∀ s, s = Store.empty → s.Sound := fun s hs => hs ▸ Store.sound_empty
  have hstart : ∀ p, IsTask p → p.Safe Store.Sound fun _ => True := by
    rintro p ⟨hp⟩
    exact hp.safe.discard
  exact (hruns.safe hinit hstart).1

/-- **Known secrets are never stored.** In every store that operations can produce, whatever
plugins, bundles, clients and targets say and however the operations take turns, every value under
a sensitive key is masked in the event payloads, in the snapshots and in the stored diffs. -/
theorem secrets_masked {tasks : List (Prog Store Error Unit)} {s : Store} (h : Runs tasks s) :
    s.Masked :=
  (Reachable.sound ⟨tasks, h⟩).toMasked

/-- A one-shot capture of an event with a password. -/
theorem secrets_masked_capture :
    let event := Event.brief .httpRequest "evt_1" "corr_1" 0
      (.ofEntries [("password", .ofString "hunter2")] (by simp))
    (((captureRecording .bySequence "default" "" "mock_capture" "1"
      fun recordingId => { events := [{ event with recordingId := recordingId }] }).discard).run
        Store.empty).2.Masked := by
  intro event
  obtain ⟨tasks, hruns⟩ := reachable_empty.run (.captureRecording .bySequence "default" ""
    "mock_capture" "1" fun recordingId => { events := [{ event with recordingId := recordingId }] })
  exact secrets_masked hruns

end InfraReplay
