import InfraReplay.Recording.Database
import InfraReplay.Recording.ImportEffects

/-!
# What an import asks for

An import that parses goes on to primary keys, column types, foreign keys, the file of the snapshot
and the recording ids that events carry. `Importable` collects what all of them ask of the recording
that is written, for any database and any blob root: an import of it returns with all its events
exactly when it is importable (`Importable.runUnder_openImported`, `importable_of_runUnder`).
-/

namespace InfraReplay

open Python

/-- What an import asks of the recording it writes. -/
structure Importable (db : Database) (hex : String) (s : Store) (r : Recording) : Prop where
  named : r.recordingId ≠ ""
  free : r.recordingId ∉ s.recordings.rows.map RecordingRow.recordingId
  /-- Its snapshot can be written. -/
  file : s.blobs.takesKey (snapshotKey r.recordingId) = true
  /-- No event id is given twice or taken. -/
  distinct : ((s.events.rows ++ redactedRows r.events []).map EventRow.eventId).Nodup
  row : db.takesRecording (r.asNew.row hex) = true
  rows : ∀ row ∈ redactedRows r.events [], db.takesEvent row = true ∧
    (db.foreignKeys = true → row.event.recordingId = r.recordingId ∨
      row.event.recordingId ∈ s.recordings.rows.map RecordingRow.recordingId)
  numbers : ∀ i < r.events.length, db.integer (i : ℤ) = true
  /-- As many events are already stored under the id as events of the bundle go elsewhere. -/
  count : (s.eventRows r.recordingId).length =
    (r.events.filter fun e => e.recordingId ≠ r.recordingId).length

variable {db : Database} {s s₁ s₂ : Store} {order : RowOrder} {r : Recording} {hex : String}

/-- The event rows of the recording once its events are inserted. -/
theorem length_eventRows_inserted (hevents : s₁.events = s.events)
    (hrows : s₁.addEvents (redactedRows r.events []) = .ok ((), s₂)) :
    (s₂.eventRows r.recordingId).length +
        (r.events.filter fun e => e.recordingId ≠ r.recordingId).length =
      (s.eventRows r.recordingId).length + r.events.length := by
  have hsplit := List.length_eq_length_filter_add (l := r.events)
    (fun e => decide (e.recordingId = r.recordingId))
  rw [Store.eventRows_addEvents hrows, filter_redactedRows, List.length_append,
    length_redactedRows]
  simp only [Store.eventRows, hevents, decide_not] at hsplit ⊢
  omega

/-- The foreign key of a new row, once the recording is opened. -/
theorem refers_opened_iff (hrow : s.addRecording (r.asNew.row hex) = .ok ((), s₁))
    (row : EventRow) :
    db.refers s₁ row = true ↔
      (db.foreignKeys = true → row.event.recordingId = r.asNew.chosenId hex ∨
        row.event.recordingId ∈ s.recordings.rows.map RecordingRow.recordingId) := by
  have hids : s₁.recordings.rows.map RecordingRow.recordingId =
      s.recordings.rows.map RecordingRow.recordingId ++ [r.asNew.chosenId hex] := by
    rw [(Store.addRecording_eq_ok hrow).1, List.map_append, List.map_singleton]
    rfl
  unfold Database.refers
  rw [hids, Bool.or_eq_true, decide_eq_true_eq, List.mem_append, List.mem_singleton]
  cases db.foreignKeys <;> simp [or_comm]

/-- Once its rows are in and fit, what is left of an import is to finish. -/
theorem runUnder_openImported_eq (hrow : s.addRecording (r.asNew.row hex) = .ok ((), s₁))
    (hs₁ : db.holds s₁ = true) (hrows : s₁.addEvents (redactedRows r.events []) = .ok ((), s₂))
    (hs₂ : db.holds s₂ = true) (order : RowOrder) (n : ℕ) :
    ∃ n', (openImported order hex r).runUnder db.refuses n s =
      (finishRecording order r.recordingId).runUnder db.refuses n' s₂ := by
  have hstart : (startRecording r.asNew hex).runUnder db.refuses n s =
      (.ok (r.asNew.chosenId hex), n + 1, s₁) := by
    unfold startRecording
    exact Prog.runUnder_bind_ok (Prog.runUnder_tx_ok hrow (Database.refuses_eq_none_iff.mpr hs₁))
  obtain ⟨n', happend⟩ := runUnder_appendEvents db.refuses (n + 1) hrows
    (fun _ => Database.refuses_eq_none_iff.mpr hs₂) r.recordingId
  refine ⟨n', ?_⟩
  rw [openImported_eq, Prog.runUnder_bind_ok hstart, importRest, Prog.runUnder_bind_ok happend]

/-- An importable recording is imported with all its events. -/
theorem Importable.runUnder_openImported (h : Importable db hex s r) (hs : db.holds s = true)
    (order : RowOrder) (n : ℕ) :
    ∃ r' n' s', (openImported order hex r).runUnder db.refuses n s = (.ok r', n', s') ∧
      r'.status = .completed ∧ r'.events.length = r.events.length := by
  have hchosen : r.asNew.chosenId hex = r.recordingId := chosenId_asNew h.named hex
  obtain ⟨path, hpath, htakes⟩ := BlobRoot.takesKey_iff.mp h.file
  -- the row is taken
  obtain ⟨s₁, hrow⟩ : ∃ s₁, s.addRecording (r.asNew.row hex) = .ok ((), s₁) :=
    Store.exists_addRecording
      (by rw [show (r.asNew.row hex).recordingId = r.recordingId from hchosen]; exact h.free)
  have hs₁ : db.holds s₁ = true := (Database.holds_addRecording_iff hs hrow).mpr h.row
  obtain ⟨hrecordings, hevents, -, hblobs⟩ := Store.addRecording_eq_ok hrow
  -- and so are the events
  obtain ⟨s₂, hrows⟩ : ∃ s₂, s₁.addEvents (redactedRows r.events []) = .ok ((), s₂) :=
    Store.exists_addEvents (by rw [hevents]; exact h.distinct)
  have hs₂ : db.holds s₂ = true := by
    refine (Database.holds_addEvents_iff hs₁ hrows).mpr fun row hmem => ?_
    refine ⟨(h.rows row hmem).1, (refers_opened_iff hrow row).mpr ?_⟩
    rw [hchosen]
    exact (h.rows row hmem).2
  have hlength : (s₂.eventRows r.recordingId).length = r.events.length := by
    have hsum := length_eventRows_inserted hevents hrows
    have hcount := h.count
    omega
  have hown : s₂.recordings.find? r.recordingId = some (r.asNew.row hex) := by
    refine Table.find?_eq_some_iff.mpr ⟨?_, hchosen⟩
    rw [(Store.addEvents_eq_ok hrows).2.1, hrecordings]
    exact List.mem_append_right _ (List.mem_singleton_self _)
  have htakes₂ : s₂.blobs.takes path = true := by
    rwa [(Store.addEvents_eq_ok hrows).2.2.2, hblobs]
  -- finishing numbers them
  have hs₃ : db.holds (s₂.finished (r.asNew.row hex)
      (correlate (s₂.eventsFor order r.recordingId)) path) = true := by
    refine (Database.holds_finished_iff hs₂ hchosen).mpr fun i hi => ?_
    exact h.numbers i (hlength ▸ hi)
  obtain ⟨n', hrun⟩ := runUnder_openImported_eq hrow hs₁ hrows hs₂ order n
  obtain ⟨n'', hfinish⟩ := runUnder_finishRecording db.refuses order n' hown hpath htakes₂
    (fun _ => Database.refuses_eq_none_iff.mpr hs₂)
    (fun _ _ => Database.refuses_eq_none_iff.mpr hs₂)
    (fun _ _ => Database.refuses_eq_none_iff.mpr hs₃)
  rw [hrun, hfinish]
  refine ⟨_, n'', _, rfl, rfl, ?_⟩
  · show (correlate (s₂.eventsFor order r.recordingId)).length = _
    rw [length_correlate, Store.length_eventsFor, hlength]

/-- The database holds what a commit leaves, also where nothing is committed. -/
theorem holds_of_appended {refuses : ℕ → Store → Store → Option Error}
    (hguards : db.Guards refuses) {n : ℕ} (hs₁ : db.holds s₁ = true)
    (hadd : s₁.addEvents (redactedRows r.events []) = .ok ((), s₂))
    (hrefuses : r.events ≠ [] → refuses n s₁ s₂ = none) : db.holds s₂ = true := by
  by_cases hnil : r.events = []
  · rw [hnil, redactedRows, List.map_nil, List.map_nil, Store.addEvents_nil] at hadd
    obtain rfl : s₁ = s₂ := congrArg Prod.snd (Except.ok.inj hadd)
    exact hs₁
  · exact hguards _ _ _ (hrefuses hnil)

/-- A recording that is imported with all its events was importable. -/
theorem importable_of_runUnder (hs : db.holds s = true)
    (hempty : r.recordingId = "" → "" ∉ s.recordings.rows.map RecordingRow.recordingId)
    {r' : Recording} {n n' : ℕ} {s' : Store}
    (h : (openImported order hex r).runUnder db.refuses n s = (.ok r', n', s'))
    (hcount : r'.events.length = r.events.length) : Importable db hex s r := by
  rw [openImported_eq] at h
  rcases runUnder_startRecording_cases db.refuses r.asNew hex n s with
    ⟨s₁, hrow, hrefuses₁, hstart⟩ | ⟨e, hstart⟩
  swap
  · rw [Prog.runUnder_bind_error hstart] at h
    cases congrArg Prod.fst h
  rw [Prog.runUnder_bind_ok hstart] at h
  obtain ⟨s₂, hrows, hrefuses₂, row, path, hown, hpath, htakes, ⟨n₃, s₃, hrefuses₃⟩, rfl⟩ :=
    importRest_eq_ok h
  -- every commit left a store that the database holds
  have hs₁ : db.holds s₁ = true := Database.refuses_eq_none_iff.mp hrefuses₁
  obtain ⟨hrecordings, hevents, -, hblobs⟩ := Store.addRecording_eq_ok hrow
  obtain ⟨-, hkept, -, hblobs₂⟩ := Store.addEvents_eq_ok hrows
  have hs₂ : db.holds s₂ = true := holds_of_appended db.guards_refuses hs₁ hrows hrefuses₂
  have hid : row.recordingId = r.recordingId := (Table.find?_eq_some_iff.mp hown).2
  have hnamed : r.recordingId ≠ "" := by
    intro hnil
    -- the row that was found would have the empty id
    have hmem := (Table.find?_eq_some_iff.mp hown).1
    rw [hkept, hrecordings] at hmem
    rcases List.mem_append.mp hmem with hmem | hmem
    · exact hempty hnil (List.mem_map.mpr ⟨row, hmem, hid.trans hnil⟩)
    · rw [List.mem_singleton.mp hmem] at hid
      exact r.asNew.chosenId_ne hex (hid.trans hnil)
  have hlength : (s₂.eventRows r.recordingId).length = r.events.length := by
    rw [← hcount]
    show _ = (correlate (s₂.eventsFor order r.recordingId)).length
    rw [length_correlate, Store.length_eventsFor]
  refine ⟨hnamed, ?_, ?_, ?_, ?_, ?_, ?_, ?_⟩
  · rw [← chosenId_asNew hnamed hex]
    exact Store.not_mem_of_addRecording hrow
  · rw [hblobs₂, hblobs] at htakes
    exact BlobRoot.takesKey_iff.mpr ⟨path, hpath, htakes⟩
  · rw [← hevents]
    exact Store.nodup_of_addEvents hrows
  · exact (Database.holds_addRecording_iff hs hrow).mp hs₁
  · intro row' hrow'
    obtain ⟨htakes, hrefers⟩ := (Database.holds_addEvents_iff hs₁ hrows).mp hs₂ row' hrow'
    have hforeign := (refers_opened_iff hrow row').mp hrefers
    rw [chosenId_asNew hnamed] at hforeign
    exact ⟨htakes, hforeign⟩
  · intro i hi
    have hs₃ := Database.refuses_eq_none_iff.mp hrefuses₃
    exact (Database.holds_finished_iff hs₂ hid).mp hs₃ i (hlength ▸ hi)
  · have hsum := length_eventRows_inserted hevents hrows
    omega

end InfraReplay
