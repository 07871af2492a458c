import InfraReplay.Recording.Database

/-!
# The stream of one workflow

A producer that records one request knows what correlation computes: which events belong together,
in which order they happened and which event caused which. `Workflow` says that a list of events
carries all of it, and `Workflow.correlate_of_perm` that correlation then changes nothing, however
the rows come back from the database.
-/

namespace InfraReplay

/-- The link of an event is there, or the event is a request, which has none. -/
def Event.HasLink (e : Event) : Prop :=
  (e.parentEventId ≠ none ∧ e.parentEventId ≠ some "") ∨
    (e.parentEventId = none ∧ e.eventType = .httpRequest)

instance (e : Event) : Decidable e.HasLink := by
  unfold Event.HasLink
  infer_instance

/-- The events of one workflow: numbered and in the order of time, under one correlation id, and
with their links. -/
structure Workflow (events : List Event) : Prop where
  numbered : ∀ (i : ℕ) (e : Event), events[i]? = some e → e.sequence = i
  inOrder : events.Pairwise fun a b => a.timestampNs ≤ b.timestampNs
  sameGroup : ∀ a ∈ events, ∀ b ∈ events, a.correlationId = b.correlationId
  linked : ∀ e ∈ events, e.HasLink

/-- Everything of an event besides its payload. -/
def Event.withoutPayload (e : Event) : Event := { e with payload := .empty }

/-- Numbering from `n` leaves a list alone that is numbered from `n`. -/
theorem numberFrom_eq_self {n : ℤ} {events : List Event}
    (h : ∀ (i : ℕ) (e : Event), events[i]? = some e → e.sequence = n + i) :
    numberFrom n events = events := by
  induction events generalizing n with
  | nil => rfl
  | cons e events ih =>
    have he : e.sequence = n := by simpa using h 0 e rfl
    rw [numberFrom, ih fun i e hi => ?_, ← he]
    rw [h (i + 1) e hi, Nat.cast_succ]
    omega

/-- Linking leaves events alone that have their links. -/
theorem linkFrom_of_hasLink {group : List Event} (h : ∀ e ∈ group, e.HasLink)
    (root lastQuery : Option Event) : linkFrom root lastQuery group = group := by
  induction group generalizing lastQuery with
  | nil => rfl
  | cons e group ih =>
    have hkept : orElse e.parentEventId (parentFor e root lastQuery) = e.parentEventId := by
      unfold orElse
      rcases h e (by simp) with ⟨hsome, hne⟩ | ⟨hnone, htype⟩
      · rw [if_neg (not_or.mpr ⟨hsome, hne⟩)]
      · -- nothing is the parent of a request
        rw [if_pos (.inl hnone), parentFor, if_pos htype, hnone]
    rw [linkFrom, hkept, ih fun e he => h e (List.mem_cons_of_mem _ he)]

namespace Workflow

variable {events events' : List Event}

/-- Whether a list is a workflow does not depend on the payloads. -/
theorem congr (h : Workflow events)
    (heq : events'.map Event.withoutPayload = events.map Event.withoutPayload) :
    Workflow events' := by
  -- the events at a place agree in all that a workflow is about
  have hplace : ∀ (i : ℕ) (e' : Event), events'[i]? = some e' →
      ∃ e, events[i]? = some e ∧ e'.withoutPayload = e.withoutPayload := by
    intro i e' hi
    have hmap := congrArg (fun l => l[i]?) heq
    simp only [List.getElem?_map, hi, Option.map_some] at hmap
    obtain ⟨e, he, heq⟩ := Option.map_eq_some_iff.mp hmap.symm
    exact ⟨e, he, heq.symm⟩
  have hmem : ∀ e' ∈ events', ∃ e ∈ events, e'.withoutPayload = e.withoutPayload := by
    intro e' he'
    obtain ⟨i, hi⟩ := List.getElem?_of_mem he'
    obtain ⟨e, he, heq⟩ := hplace i e' hi
    exact ⟨e, List.mem_of_getElem? he, heq⟩
  constructor
  case numbered =>
    intro i e' hi
    obtain ⟨e, he, heq⟩ := hplace i e' hi
    rw [← h.numbered i e he]
    exact (congrArg Event.sequence heq :)
  case inOrder =>
    have hordered : (events.map Event.withoutPayload).Pairwise fun a b =>
        a.timestampNs ≤ b.timestampNs := List.pairwise_map.mpr h.inOrder
    rw [← heq] at hordered
    rw [List.pairwise_map] at hordered
    exact hordered
  case sameGroup =>
    intro a' ha' b' hb'
    obtain ⟨a, ha, haa⟩ := hmem a' ha'
    obtain ⟨b, hb, hbb⟩ := hmem b' hb'
    calc a'.correlationId = a.correlationId := (congrArg Event.correlationId haa :)
      _ = b.correlationId := h.sameGroup a ha b hb
      _ = b'.correlationId := (congrArg Event.correlationId hbb :).symm
  case linked =>
    intro e' he'
    obtain ⟨e, he, heq⟩ := hmem e' he'
    have hlink := h.linked e he
    unfold Event.HasLink at hlink ⊢
    rw [show e'.parentEventId = e.parentEventId from (congrArg Event.parentEventId heq :),
      show e'.eventType = e.eventType from (congrArg Event.eventType heq :)]
    exact hlink

/-- A workflow that is cut off is one. -/
theorem take (h : Workflow events) (n : ℕ) : Workflow (events.take n) where
  numbered i e hi := by
    apply h.numbered i e
    rw [List.getElem?_take] at hi
    split_ifs at hi
    exact hi
  inOrder := h.inOrder.sublist (List.take_sublist n events)
  sameGroup a ha b hb := h.sameGroup a (List.mem_of_mem_take ha) b (List.mem_of_mem_take hb)
  linked e he := h.linked e (List.mem_of_mem_take he)

/-- Redaction looks at payloads only. -/
theorem redact (h : Workflow events) : Workflow (events.map redact) := by
  apply h.congr
  rw [List.map_map]
  rfl

theorem finished (h : Workflow events) : Finished events where
  numbered := numberFrom_eq_self fun i e hi => by rw [h.numbered i e hi, zero_add]
  blocks := by
    by_cases hnil : events = []
    · exact ⟨[], hnil.symm, ⟨by simp, by simp, by simp, by simp, by simp⟩, by simp⟩
    · -- all events are one block
      refine ⟨[events], by simp, ⟨?_, ?_, by simp, ?_, by simp⟩, ?_⟩
      · simp [stamps, hnil]
      · intro b hb p hp q hq
        rw [List.map_singleton, List.mem_singleton] at hb
        subst hb
        obtain ⟨e, he, rfl⟩ := List.mem_map.mp hp
        obtain ⟨e', he', rfl⟩ := List.mem_map.mp hq
        exact h.sameGroup e he e' he'
      · intro b hb
        rw [List.map_singleton, List.mem_singleton] at hb
        subst hb
        exact List.pairwise_map.mpr h.inOrder
      · intro b hb
        rw [List.mem_singleton.mp hb]
        exact linkFrom_of_hasLink h.linked _ _

/-- The numbers tell the clocks of a workflow apart. -/
theorem clocksDistinct (h : Workflow events) : ClocksDistinct events where
  within := h.finished.pairwise_sequence.imp fun hlt _ hclock =>
    hlt.ne (Prod.ext_iff.mp (toLex.injective hclock)).2
  between a ha b hb hne := absurd (h.sameGroup a ha b hb) hne

/-- **A workflow comes out of correlation as it went in**, in whatever order its rows are read. -/
theorem correlate_of_perm (h : Workflow events) (hperm : events'.Perm events) :
    correlate events' = events := by
  rw [correlate_perm (h.clocksDistinct.perm hperm.symm) hperm, correlate_eq_self h.finished]

end Workflow

/-! ### Storing one -/

/-- The snapshot of a recording whose id is one path segment. -/
def snapshotFile (recordingId : String) : List String :=
  ["recordings", recordingId, "recording.json"]

/-- A store can take a recording of this id with these events: the ids are new to it, and the
snapshot can be written. -/
structure Store.Takes (s : Store) (recordingId : String) (events : List Event) : Prop where
  recording : recordingId ∉ s.recordings.rows.map RecordingRow.recordingId
  rows : ∀ row ∈ s.events.rows, row.event.recordingId ≠ recordingId
  path : pathFor (snapshotKey recordingId) = some (snapshotFile recordingId)
  file : s.blobs.takes (snapshotFile recordingId) = true
  owned : ∀ e ∈ events, e.recordingId = recordingId
  events : (s.events.rows.map EventRow.eventId ++ events.map Event.eventId).Nodup

/-- A store has taken a recording with its events, and the other recordings and the comparisons are
as they were. -/
structure Store.Took (s : Store) (recordingId : String) (events : List Event) (s' : Store) :
    Prop where
  recordings : s'.recordings.rows.map RecordingRow.recordingId =
    s.recordings.rows.map RecordingRow.recordingId ++ [recordingId]
  events : (s'.events.rows.map fun row => (row.eventId, row.event.recordingId)) =
    (s.events.rows.map fun row => (row.eventId, row.event.recordingId)) ++
      events.map fun e => (e.eventId, e.recordingId)
  comparisons : s'.comparisons = s.comparisons
  snapshot : ∃ document,
    s.blobs.put (snapshotKey recordingId) document = (.ok (snapshotFile recordingId), s'.blobs)
  others : ∀ other, other ≠ recordingId →
    s'.recordings.find? other = s.recordings.find? other ∧ s'.eventRows other = s.eventRows other

section Stored

variable {s s' s₁ : Store} {recordingId : String} {row : RecordingRow} {events : List Event}

/-- **A workflow is finished as it was stored**, however the rows are read. -/
theorem run_finishRecording_workflow (hw : Workflow events) {path : List String}
    (howned : ∀ e ∈ events, e.recordingId = recordingId)
    (hrow : s₁.recordings.find? recordingId = some row)
    (hpath : pathFor (snapshotKey recordingId) = some path) (htakes : s₁.blobs.takes path = true)
    (hadd : s.addEvents (redactedRows events []) = .ok ((), s₁))
    (hfree : ∀ row ∈ s.events.rows, row.event.recordingId ≠ recordingId) (order : RowOrder) :
    (finishRecording order recordingId).run s₁ =
      (.ok (rowToRecording { row with status := .completed } (events.map redact)),
        s₁.finished row (events.map redact) path) := by
  have hrows : (s₁.eventRows recordingId).map EventRow.event = events.map redact := by
    have hnone : s.eventRows recordingId = [] :=
      List.filter_eq_nil_iff.mpr fun row hrow => by simpa using hfree row hrow
    rw [eventRows_addEvents_owned hadd howned, hnone, List.nil_append, redactedRows, List.map_map]
    exact List.map_id _
  have hcorrelate : correlate (s₁.eventsFor order recordingId) = events.map redact :=
    hw.redact.correlate_of_perm (hrows ▸ Store.eventsFor_perm order recordingId s₁)
  rw [run_finishRecording hrow hpath htakes, hcorrelate]

/-- Opening a recording, adding the events of a workflow and finishing goes through. -/
theorem Store.Takes.exists_finished (h : s.Takes recordingId events) (hw : Workflow events)
    (hid : row.recordingId = recordingId) :
    ∃ s₀ s₁ s₂, s.addRecording row = .ok ((), s₀) ∧
      s₀.addEvents (redactedRows events []) = .ok ((), s₁) ∧
      (∀ order, (finishRecording order recordingId).run s₁ =
        (.ok (rowToRecording { row with status := .completed } (events.map redact)), s₂)) ∧
      s.Took recordingId events s₂ := by
  obtain ⟨s₀, hstart⟩ := @Store.exists_addRecording s row (hid ▸ h.recording)
  obtain ⟨hrecordings, hevents, hcomparisons, hblobs⟩ := Store.addRecording_eq_ok hstart
  have hnd : ((s₀.events.rows ++ redactedRows events []).map EventRow.eventId).Nodup := by
    rw [List.map_append, map_eventId_redactedRows, hevents]
    exact h.events
  obtain ⟨s₁, hadd⟩ := Store.exists_addEvents hnd
  obtain ⟨hrows, hkept, hcomparisons', hblobs'⟩ := Store.addEvents_eq_ok hadd
  have hfiles : s₁.blobs = s.blobs := hblobs'.trans hblobs
  have htakes : s₁.blobs.takes (snapshotFile recordingId) = true := hfiles ▸ h.file
  have hrow : s₁.recordings.find? recordingId = some row := by
    rw [Table.find?_eq_some_iff, hkept, hrecordings]
    exact ⟨List.mem_append_right _ (List.mem_singleton_self _), hid⟩
  have hfree : ∀ row ∈ s₀.events.rows, row.event.recordingId ≠ recordingId := by
    rw [hevents]
    exact h.rows
  obtain ⟨b, hput⟩ := BlobRoot.exists_put h.path h.file (snapshotDoc row (events.map redact))
  have hfinished : s₁.finished row (events.map redact) (snapshotFile recordingId) =
      Store.complete recordingId (events.map redact) (snapshotFile recordingId)
        { s₁ with blobs := b } := by
    rw [Store.finished, Store.putBlob, hid, hfiles, hput]
  refine ⟨s₀, s₁, s₁.finished row (events.map redact) (snapshotFile recordingId), hstart, hadd,
    run_finishRecording_workflow hw h.owned hrow h.path htakes hadd hfree,
    ?_, ?_, ?_, ⟨snapshotDoc row (events.map redact), ?_⟩, fun other hother => ⟨?_, ?_⟩⟩
  · rw [hfinished, Database.map_recordingId_complete, hkept, hrecordings, List.map_append,
      List.map_singleton, hid]
  · -- placing an event changes neither of the ids of its row
    rw [hfinished]
    show (((Store.placeEvents _ _).events.rows).map _) = _
    rw [Store.map_placeEvents (fun _ _ => rfl), hrows, hevents, List.map_append, redactedRows,
      List.map_map, List.map_map]
    rfl
  · rw [hfinished, Store.comparisons_complete, ← hcomparisons, ← hcomparisons']
  · rw [hfinished, Store.blobs_complete]
    exact hput
  · rw [hfinished, Store.find?_complete_of_ne hother, hkept,
      Store.find?_addRecording_of_ne hstart (hid ▸ hother)]
  · have hforeign : ∀ e ∈ events, e.recordingId ≠ other := fun e he => h.owned e he ▸ hother.symm
    have hsame : s₁.eventRows other = s.eventRows other := by
      rw [eventRows_addEvents_foreign hadd hforeign, Store.eventRows, hevents, Store.eventRows]
    have hids : (events.map redact).map Event.eventId = events.map Event.eventId := by
      rw [List.map_map]
      rfl
    rw [hfinished, ← hsame]
    -- the commit rewrites the rows of the events that came in
    refine Store.eventRows_complete_of_ne (s := { s₁ with blobs := b })
      (hids ▸ (List.nodup_append.mp h.events).2.1) (fun e he => ?_) hother _
    obtain ⟨e, hmem, rfl⟩ := List.mem_map.mp he
    refine ⟨⟨redact e, Dict.get? [] e.eventId⟩, ?_, rfl⟩
    show _ ∈ s₁.eventRows recordingId
    rw [eventRows_addEvents_owned hadd h.owned]
    exact List.mem_append_right _ (mem_redactedRows [] hmem)

/-- A store that took one recording can still take another with other ids. -/
theorem Store.Takes.of_took {other : String} {events' : List Event}
    (h : s.Takes other events') (htook : s.Took recordingId events s')
    (howned : ∀ e ∈ events, e.recordingId = recordingId) (hother : other ≠ recordingId)
    (hevents : ∀ e ∈ events, ∀ e' ∈ events', e.eventId ≠ e'.eventId) : s'.Takes other events' where
  recording := by
    rw [htook.recordings, List.mem_append, List.mem_singleton]
    exact not_or.mpr ⟨h.recording, hother⟩
  rows row hrow := by
    have hmem := List.mem_map_of_mem
      (f := fun row : EventRow => (row.eventId, row.event.recordingId)) hrow
    rw [htook.events, List.mem_append] at hmem
    -- the row was there before, or is one of those that were taken
    rcases hmem with hold | hnew
    · obtain ⟨row', hrow', hids⟩ := List.mem_map.mp hold
      rw [← (Prod.mk.inj hids).2]
      exact h.rows row' hrow'
    · obtain ⟨e, he, hids⟩ := List.mem_map.mp hnew
      rw [← (Prod.mk.inj hids).2, howned e he]
      exact hother.symm
  path := h.path
  file := by
    obtain ⟨document, hput⟩ := htook.snapshot
    exact BlobRoot.takes_put hput h.file (BlobRoot.clear_of_length_eq rfl)
  owned := h.owned
  events := by
    have hids : s'.events.rows.map EventRow.eventId =
        s.events.rows.map EventRow.eventId ++ events.map Event.eventId := by
      have hfst := congrArg (List.map Prod.fst) htook.events
      rw [List.map_append, List.map_map, List.map_map, List.map_map] at hfst
      exact hfst
    have hkept := List.nodup_append.mp h.events
    refine List.nodup_append.mpr ⟨s'.events.nodup, hkept.2.1, fun id hid id' hid' => ?_⟩
    rw [hids] at hid
    rcases List.mem_append.mp hid with hold | hnew
    · exact hkept.2.2 id hold id' hid'
    · obtain ⟨e, he, rfl⟩ := List.mem_map.mp hnew
      obtain ⟨e', he', rfl⟩ := List.mem_map.mp hid'
      exact hevents e he e' he'

/-- The other recordings are read as before. -/
theorem Store.Took.run_getRecording (h : s.Took recordingId events s') {other : String}
    (hother : other ≠ recordingId) {order : RowOrder} {found : Option Recording}
    (hget : (getRecording order other).run s = (.ok found, s)) :
    (getRecording order other).run s' = (.ok found, s') := by
  obtain ⟨hrow, hrows⟩ := h.others other hother
  have hevents : s'.eventsFor order other = s.eventsFor order other := by
    rw [Store.eventsFor, hrows, Store.eventsFor]
  unfold getRecording at hget ⊢
  rw [Prog.run_bind_ok (Prog.run_read _ _)] at hget ⊢
  rw [hrow]
  cases hfind : s.recordings.find? other with
  | none =>
    rw [hfind] at hget
    exact Prod.ext (Prod.ext_iff.mp hget).1 rfl
  | some row =>
    rw [hfind] at hget
    simp only at hget ⊢
    rw [Prog.run_bind_ok (Prog.run_read _ _)] at hget ⊢
    rw [hevents]
    exact Prod.ext (Prod.ext_iff.mp hget).1 rfl

/-- Events appended one by one are there when all of them can be added at once. -/
theorem run_pump (h : s.addEvents (redactedRows events []) = .ok ((), s')) (recordingId : String) :
    (pump recordingId events).run s = (.ok (), s') := by
  induction events generalizing s with
  | nil =>
    obtain rfl : s = s' := by simpa [redactedRows] using h
    rfl
  | cons event events ih =>
    -- one transaction for each event inserts the same rows as one for all
    have hsplit : redactedRows (event :: events) [] =
        redactedRows [event] [] ++ redactedRows events [] := rfl
    rw [hsplit, Store.addEvents_append] at h
    cases hone : s.addEvents (redactedRows [event] []) with
    | error e =>
      rw [hone] at h
      cases h
    | ok r =>
      obtain ⟨u, s₁⟩ := r
      rw [hone] at h
      have happend : (appendEvents recordingId [event]).run s = (.ok [redact event], s₁) := by
        rw [run_appendEvents, if_neg (List.cons_ne_nil _ _), hone]
        rfl
      rw [pump, Prog.run_bind_ok happend]
      exact ih h

/-- **The capture of a workflow.** A one-shot capture whose plugin yields a workflow gives it back,
redacted, as a completed recording, and that is what the store has from then on. -/
theorem run_captureRecording_workflow {plugin : String → PluginRun} {hex : String}
    (hplugin : plugin (newId "rec" hex) = { events := events }) (hw : Workflow events)
    (htakes : s.Takes (newId "rec" hex) events) (order : RowOrder)
    (project title pluginName : String) :
    ∃ recording s', (captureRecording order project title pluginName hex plugin).run s =
        (.ok recording, s') ∧
      recording.recordingId = newId "rec" hex ∧ recording.title = title ∧
      recording.status = .completed ∧ recording.events = events.map redact ∧
      (∀ order', (getRecording order' (newId "rec" hex)).run s' = (.ok (some recording), s')) ∧
      s.Took (newId "rec" hex) events s' := by
  let new : NewRecording := { project := project, title := title, capturePlugin := pluginName }
  obtain ⟨s₀, s₁, s₂, hopen, hadd, hfinish, htook⟩ :=
    htakes.exists_finished hw (rfl : (new.row hex).recordingId = newId "rec" hex)
  have hstart : (startRecording new hex).run s = (.ok (newId "rec" hex), s₀) := by
    rw [startRecording, Prog.run_bind_ok (Prog.run_tx_ok hopen)]
    rfl
  -- the plugin starts, hands its events over and stops, and nothing raises
  have hbody : (do
      pluginResult (plugin (newId "rec" hex)).started
      pump (newId "rec" hex) (plugin (newId "rec" hex)).events
      pluginResult (plugin (newId "rec" hex)).stopped : Prog Store Error Unit).run s₀ =
        (.ok (), s₁) := by
    rw [hplugin]
    show (pump (newId "rec" hex) events >>= fun _ => pure ()).run s₀ = _
    rw [Prog.run_bind_ok (run_pump hadd _)]
    rfl
  have hrun : (captureRecording order project title pluginName hex plugin).run s =
      (finishRecording order (newId "rec" hex)).run s₁ := by
    unfold captureRecording
    rw [Prog.run_bind_ok hstart, Prog.run_bind_ok (Prog.run_tryCatch_ok hbody)]
  refine ⟨_, s₂, hrun.trans (hfinish order), rfl, rfl, rfl, rfl, fun order' => ?_, htook⟩
  exact run_getRecording_of_finish order' (hfinish order)

end Stored

end InfraReplay
