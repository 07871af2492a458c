import InfraReplay.Recording.Importable

/-!
# Imports and the other recordings

Every recording that was there before an import should be there after it, with the events it had,
and a successful import should hold every event of its bundle (`ImportFrame`). Events are stored
under the recording id they carry; `StaysInside` says when that is the recording of the bundle, or
when it does not matter, and `importFrame_iff` that nothing else can go wrong on a database,
whichever steps fail besides the writes that do not fit.
-/

namespace InfraReplay

open Python

variable {refuses : ℕ → Store → Store → Option Error} {s s' : Store} {order : RowOrder}
  {recordingId other : String}

/-! ### Finishing leaves other recordings alone -/

/-- The commit rewrites no row of another recording. -/
theorem eventRows_correlated_of_ne (s : Store) (h : other ≠ recordingId) (order : RowOrder)
    (locator : List String) :
    (s.complete recordingId (correlate (s.eventsFor order recordingId)) locator).eventRows other =
      s.eventRows other := by
  refine Store.eventRows_complete_of_ne (nodup_correlate_eventsFor order recordingId s)
    (fun e he => ?_) h locator
  obtain ⟨row, hrow, hplaced⟩ := exists_placed_of_mem_correlate he
  refine ⟨row, hrow, ?_⟩
  rw [← hplaced]
  rfl

/-- Finishing rewrites no row of another recording. -/
theorem eventRows_finished_of_ne (h : other ≠ recordingId) (order : RowOrder)
    {row : RecordingRow} (hrow : row.recordingId = recordingId) (path : List String) :
    (s.finished row (correlate (s.eventsFor order recordingId)) path).eventRows other =
      s.eventRows other := by
  subst hrow
  -- the snapshot is no part of the rows
  have hsame := eventRows_correlated_of_ne (s.putBlob (snapshotKey row.recordingId)
    (snapshotDoc row (correlate (s.eventsFor order row.recordingId)))).2 h order path
  rwa [Store.eventsFor_putBlob] at hsame

variable (refuses) in
/-- So does a finishing that may fail. -/
theorem eventRows_runUnder_finishRecording (h : other ≠ recordingId) (order : RowOrder) (n : ℕ)
    (s : Store) :
    ((finishRecording order recordingId).runUnder refuses n s).2.2.eventRows other =
      s.eventRows other := by
  rcases runUnder_finishRecording_cases refuses order recordingId n s with
    ⟨row, path, n', -, -, hrow, -, -, -, hfinish⟩ | ⟨e, n', s', hfinish, -, hevents⟩
  · rw [hfinish]
    exact eventRows_finished_of_ne h order (Table.find?_eq_some_iff.mp hrow).2 path
  · rw [hfinish, Store.eventRows, hevents, Store.eventRows]

/-- Rows of other recordings keep their status. -/
theorem find?_finished_of_ne (h : other ≠ recordingId) (events : List Event)
    {row : RecordingRow} (hrow : row.recordingId = recordingId) (path : List String) :
    (s.finished row events path).recordings.find? other = s.recordings.find? other := by
  subst hrow
  exact Store.find?_complete_of_ne h events path

/-! ### Other recordings -/

/-- The events and the row of a recording are as they were. -/
structure Untouched (s s' : Store) (recordingId : String) : Prop where
  events : s'.eventRows recordingId = s.eventRows recordingId
  recording : s'.recordings.find? recordingId = s.recordings.find? recordingId

theorem Untouched.refl (s : Store) (recordingId : String) : Untouched s s recordingId := ⟨rfl, rfl⟩

theorem Untouched.trans {s₁ s₂ s₃ : Store} (h : Untouched s₁ s₂ recordingId)
    (h' : Untouched s₂ s₃ recordingId) : Untouched s₁ s₃ recordingId :=
  ⟨h'.events.trans h.events, h'.recording.trans h.recording⟩

/-- What an import of `r` should do, whatever it ends with: no recording that was there is touched,
and on success the recording returned has every event, redacted, at some place in it. -/
structure ImportFrame (recordingHex : String) (eventHexes : List String) (r : Recording)
    (s s' : Store) (result : Except Error Recording) : Prop where
  untouched : ∀ id ∈ s.recordings.rows.map RecordingRow.recordingId, Untouched s s' id
  complete : ∀ r', result = .ok r' → ∀ e ∈ (settled recordingHex eventHexes s r).events,
    ∃ n parent, { redact e with sequence := n, parentEventId := parent } ∈ r'.events

/-- The rows of the bundle can be inserted: their keys are free and distinct, the columns take them,
and their foreign keys name a recording. -/
structure Insertable (db : Database) (hex : String) (s : Store) (r : Recording) : Prop where
  free : r.asNew.chosenId hex ∉ s.recordings.rows.map RecordingRow.recordingId
  distinct : ((s.events.rows ++ redactedRows r.events []).map EventRow.eventId).Nodup
  row : db.takesRecording (r.asNew.row hex) = true
  rows : ∀ row ∈ redactedRows r.events [], db.takesEvent row = true ∧
    (db.foreignKeys = true → row.event.recordingId = r.asNew.chosenId hex ∨
      row.event.recordingId ∈ s.recordings.rows.map RecordingRow.recordingId)

/-- The recording of the bundle can be finished: it is opened under its own id, its snapshot can be
written, and the numbers of its events fit. -/
structure Finishable (db : Database) (s : Store) (r : Recording) : Prop where
  named : r.recordingId ≠ ""
  file : s.blobs.takesKey (snapshotKey r.recordingId) = true
  numbers : ∀ i < (s.eventRows r.recordingId).length +
    (r.events.filter fun e => e.recordingId = r.recordingId).length, db.integer (i : ℤ) = true

/-- The events of the bundle go nowhere but into the recording of the bundle: they are re-keyed, or
they are not inserted, or they carry its id; or the import cannot finish, and no recording that
is there gets one of them. -/
def StaysInside (db : Database) (hex : String) (r : Recording) (s : Store) : Prop :=
  (s.recordings.find? r.recordingId).isSome = true ∨
  ¬Insertable db hex s r ∨
  (∀ e ∈ r.events, e.recordingId = r.recordingId) ∨
  ¬Finishable db s r ∧
    ∀ e ∈ r.events, e.recordingId ∉ s.recordings.rows.map RecordingRow.recordingId

section Frame

variable {models : Models} {db : Database} {hex recordingHex : String} {eventHexes : List String}
  {doc : Dict String Value} {r : Recording}

/-- Opening a recording touches no other. -/
theorem untouched_of_addRecording {row : RecordingRow} {u : Unit}
    (h : s.addRecording row = .ok (u, s'))
    (hid : other ∈ s.recordings.rows.map RecordingRow.recordingId) : Untouched s s' other where
  events := by rw [Store.eventRows, (Store.addRecording_eq_ok h).2.1]; rfl
  recording := Store.find?_addRecording_of_ne h fun heq =>
    Store.not_mem_of_addRecording h (heq ▸ hid)

/-- The second half of an import touches no recording that is neither its own nor one its events
name. -/
theorem untouched_importRest (hother : other ≠ r.recordingId)
    (hforeign : ∀ e ∈ r.events, e.recordingId ≠ other) (n : ℕ) :
    Untouched s ((importRest order r).runUnder refuses n s).2.2 other := by
  unfold importRest
  rcases runUnder_appendEvents_cases refuses r.recordingId r.events [] n s with
    ⟨n₁, s₁, hadd, -, happend⟩ | ⟨e, n₁, happend⟩
  · have happended : Untouched s s₁ other := by
      refine ⟨eventRows_addEvents_foreign hadd hforeign, ?_⟩
      rw [(Store.addEvents_eq_ok hadd).2.1]
    rw [Prog.runUnder_bind_ok happend]
    -- the finishing writes the row and the events of `r` only
    refine happended.trans ?_
    rcases runUnder_finishRecording_cases refuses order r.recordingId n₁ s₁ with
      ⟨row, path, n₂, -, -, hrow, -, -, -, hfinish⟩ | ⟨e, n₂, s₂, hfinish, hrecordings, hevents⟩
    · have hid : row.recordingId = r.recordingId := (Table.find?_eq_some_iff.mp hrow).2
      rw [hfinish]
      exact ⟨eventRows_finished_of_ne hother order hid path, find?_finished_of_ne hother _ hid path⟩
    · rw [hfinish]
      exact ⟨by rw [Store.eventRows, hevents]; rfl, by rw [hrecordings]⟩
  · rw [Prog.runUnder_bind_error happend]
    exact .refl s other

/-- When the events carry the id of the recording, a successful second half returns all of them. -/
theorem complete_importRest (hown : ∀ e ∈ r.events, e.recordingId = r.recordingId)
    {r' : Recording} {n n' : ℕ}
    (h : (importRest order r).runUnder refuses n s = (.ok r', n', s')) :
    ∀ e ∈ r.events, ∃ n parent,
      { redact e with sequence := n, parentEventId := parent } ∈ r'.events := by
  obtain ⟨s₁, hadd, -, row, path, -, -, -, -, rfl⟩ := importRest_eq_ok h
  intro e he
  refine exists_mem_correlate (Store.mem_eventsFor.mpr ⟨⟨redact e, none⟩, ?_, rfl, hown e he⟩)
  rw [(Store.addEvents_eq_ok hadd).1]
  exact List.mem_append_right _ (mem_redactedRows [] he)

variable (order) in
/-- When the rows cannot be inserted, the second half changes nothing and does not succeed. -/
theorem importRest_of_not_insertable {s₁ : Store} (hguards : db.Guards refuses)
    (hs : db.holds s = true) (hs₁ : db.holds s₁ = true)
    (hopen : s.addRecording (r.asNew.row hex) = .ok ((), s₁)) (h : ¬Insertable db hex s r) (n : ℕ) :
    ∃ e n', (importRest order r).runUnder refuses n s₁ = (.error e, n', s₁) := by
  rcases runUnder_appendEvents_cases refuses r.recordingId r.events [] n s₁ with
    ⟨n₁, s₂, hadd, hrefuses, -⟩ | ⟨e, n₁, happend⟩
  · have hs₂ : db.holds s₂ = true := holds_of_appended hguards hs₁ hadd hrefuses
    refine absurd ⟨Store.not_mem_of_addRecording hopen, ?_,
      (Database.holds_addRecording_iff hs hopen).mp hs₁, fun row hrow => ?_⟩ h
    · rw [← (Store.addRecording_eq_ok hopen).2.1]
      exact Store.nodup_of_addEvents hadd
    · obtain ⟨htakes, hrefers⟩ := (Database.holds_addEvents_iff hs₁ hadd).mp hs₂ row hrow
      exact ⟨htakes, (refers_opened_iff hopen row).mp hrefers⟩
  · exact ⟨e, n₁, Prog.runUnder_bind_error happend⟩

/-- How many events the recording of the bundle has once they are inserted. -/
theorem length_eventRows_opened {s₁ s₂ : Store}
    (hopen : s.addRecording (r.asNew.row hex) = .ok ((), s₁))
    (hadd : s₁.addEvents (redactedRows r.events []) = .ok ((), s₂)) :
    (s₂.eventRows r.recordingId).length = (s.eventRows r.recordingId).length +
      (r.events.filter fun e => e.recordingId = r.recordingId).length := by
  rw [Store.eventRows_addEvents hadd, filter_redactedRows, List.length_append, length_redactedRows,
    Store.eventRows, (Store.addRecording_eq_ok hopen).2.1, Store.eventRows]

/-- A recording that is finished could be. -/
theorem finishable_of_importRest {s₁ : Store} (hguards : db.Guards refuses)
    (hs₁ : db.holds s₁ = true)
    (hnew : r.recordingId ∉ s.recordings.rows.map RecordingRow.recordingId)
    (hopen : s.addRecording (r.asNew.row hex) = .ok ((), s₁)) {r' : Recording} {n n' : ℕ}
    (h : (importRest order r).runUnder refuses n s₁ = (.ok r', n', s')) : Finishable db s r := by
  obtain ⟨s₂, hadd, hrefuses, row, path, hrow, hpath, htakes, ⟨n₃, s₃, hcommit⟩, -⟩ :=
    importRest_eq_ok h
  obtain ⟨hmem, hid⟩ := Table.find?_eq_some_iff.mp hrow
  obtain ⟨-, hkept, -, hblobs₂⟩ := Store.addEvents_eq_ok hadd
  obtain ⟨hrows, -, -, hblobs⟩ := Store.addRecording_eq_ok hopen
  refine ⟨fun hempty => ?_, ?_, fun i hi => ?_⟩
  · -- it was opened under another id
    rw [hkept, hrows] at hmem
    rcases List.mem_append.mp hmem with hmem | hmem
    · exact hnew (List.mem_map.mpr ⟨row, hmem, hid⟩)
    · obtain rfl := List.mem_singleton.mp hmem
      exact r.asNew.chosenId_ne hex (hid.trans hempty)
  · rw [hblobs₂, hblobs] at htakes
    exact BlobRoot.takesKey_iff.mpr ⟨path, hpath, htakes⟩
  · have hs₂ : db.holds s₂ = true := holds_of_appended hguards hs₁ hadd hrefuses
    rw [← length_eventRows_opened hopen hadd] at hi
    exact (Database.holds_finished_iff hs₂ hid).mp (hguards _ _ _ hcommit) i hi

/-- The second half of an import keeps the frame when no recording that was there shares its id or
an id of its events, and when it succeeds only with events that carry its id. -/
theorem importFrame_of_opened {s₁ : Store} {n : ℕ}
    (hadd : s.addRecording ((settled recordingHex eventHexes s r).asNew.row hex) = .ok ((), s₁))
    (hother : ∀ id ∈ s.recordings.rows.map RecordingRow.recordingId,
      id ≠ (settled recordingHex eventHexes s r).recordingId)
    (hforeign : ∀ id ∈ s.recordings.rows.map RecordingRow.recordingId,
      ∀ e ∈ (settled recordingHex eventHexes s r).events, e.recordingId ≠ id)
    (hown : ∀ r' n' s', (importRest order (settled recordingHex eventHexes s r)).runUnder refuses
        n s₁ = (.ok r', n', s') →
      ∀ e ∈ (settled recordingHex eventHexes s r).events,
        e.recordingId = (settled recordingHex eventHexes s r).recordingId) :
    ImportFrame recordingHex eventHexes r s
      ((importRest order (settled recordingHex eventHexes s r)).runUnder refuses n s₁).2.2
      ((importRest order (settled recordingHex eventHexes s r)).runUnder refuses n s₁).1 where
  untouched id hid :=
    (untouched_of_addRecording hadd hid).trans
      (untouched_importRest (hother id hid) (hforeign id hid) n)
  complete r' hr' := by
    have hrun : (importRest order (settled recordingHex eventHexes s r)).runUnder refuses n s₁ =
        (.ok r', _, _) := Prod.ext hr' rfl
    exact complete_importRest (hown _ _ _ hrun) hrun

/-- The second half of a re-keyed import keeps the frame: every event carries the made-up id, which
is new. -/
theorem importFrame_of_rekeyed {s₁ : Store}
    (hsettled : settled recordingHex eventHexes s r = rekey recordingHex eventHexes r)
    (hadd : s.addRecording ((settled recordingHex eventHexes s r).asNew.row hex) = .ok ((), s₁))
    (n : ℕ) :
    ImportFrame recordingHex eventHexes r s
      ((importRest order (settled recordingHex eventHexes s r)).runUnder refuses n s₁).2.2
      ((importRest order (settled recordingHex eventHexes s r)).runUnder refuses n s₁).1 := by
  have hid : (settled recordingHex eventHexes s r).recordingId ∉
      s.recordings.rows.map RecordingRow.recordingId := by
    have htaken := Store.not_mem_of_addRecording hadd
    have hne : (settled recordingHex eventHexes s r).recordingId ≠ "" := by
      rw [hsettled]
      exact newId_ne _ _
    rwa [← chosenId_asNew hne hex]
  -- `rekey` puts the new id on every event
  have hown : ∀ e ∈ (settled recordingHex eventHexes s r).events,
      e.recordingId = (settled recordingHex eventHexes s r).recordingId := by
    rw [hsettled]
    intro e he
    obtain ⟨e₀, -, rfl⟩ := List.mem_map.mp he
    rfl
  refine importFrame_of_opened hadd (fun id hmem heq => hid (heq ▸ hmem))
    (fun id hmem e he heq => hid ?_) fun _ _ _ _ => hown
  rw [← hown e he, heq]
  exact hmem

/-- The second half of an import under the bundle's own ids keeps the frame when the events stay
inside. -/
theorem importFrame_of_kept {s₁ : Store} (hguards : db.Guards refuses) (hs : db.holds s = true)
    (hs₁ : db.holds s₁ = true) (hsettled : settled recordingHex eventHexes s r = r)
    (hnew : r.recordingId ∉ s.recordings.rows.map RecordingRow.recordingId)
    (hadd : s.addRecording ((settled recordingHex eventHexes s r).asNew.row hex) = .ok ((), s₁))
    (h : StaysInside db hex r s) (n : ℕ) :
    ImportFrame recordingHex eventHexes r s
      ((importRest order (settled recordingHex eventHexes s r)).runUnder refuses n s₁).2.2
      ((importRest order (settled recordingHex eventHexes s r)).runUnder refuses n s₁).1 := by
  have hother : ∀ id ∈ s.recordings.rows.map RecordingRow.recordingId,
      id ≠ (settled recordingHex eventHexes s r).recordingId := by
    rw [hsettled]
    exact fun id hmem heq => hnew (heq ▸ hmem)
  rcases h with hfound | hinsertable | hown | ⟨hstuck, hforeign⟩
  · -- the id is taken after all
    obtain ⟨row, hrow⟩ := Option.isSome_iff_exists.mp hfound
    obtain ⟨hmem, hid⟩ := Table.find?_eq_some_iff.mp hrow
    exact absurd (List.mem_map.mpr ⟨row, hmem, hid⟩) hnew
  · -- no event is inserted
    rw [hsettled] at hadd ⊢
    obtain ⟨e, n₂, hrest⟩ := importRest_of_not_insertable order hguards hs hs₁ hadd hinsertable n
    rw [hrest]
    exact ⟨fun id hid => untouched_of_addRecording hadd hid, fun r' hr' => by cases hr'⟩
  · have hown₁ : ∀ e ∈ (settled recordingHex eventHexes s r).events,
        e.recordingId = (settled recordingHex eventHexes s r).recordingId := by
      rw [hsettled]
      exact hown
    exact importFrame_of_opened hadd hother
      (fun id hmem e he heq => hother id hmem ((hown₁ e he).symm.trans heq).symm)
      fun _ _ _ _ => hown₁
  · refine importFrame_of_opened hadd hother (fun id hmem e he heq => ?_) fun r' n' s' hrun => ?_
    · rw [hsettled] at he
      exact hforeign e he (heq ▸ hmem)
    · rw [hsettled] at hadd hrun
      exact absurd (finishable_of_importRest hguards hs₁ hnew hadd hrun) hstuck

/-- An import whose events stay inside keeps the frame, whichever of its steps fail. -/
theorem importFrame_of_staysInside (hguards : db.Guards refuses) (hs : db.holds s = true)
    (hparse : parseBundle models doc = .ok r) (h : StaysInside db hex r s) (n : ℕ) :
    let out := (importRecording models order hex recordingHex eventHexes doc).runUnder refuses n s
    ImportFrame recordingHex eventHexes r s out.2.2 out.1 := by
  intro out
  have hout : out = (importOpened models hex recordingHex eventHexes doc >>=
      importRest order).runUnder refuses n s := by
    rw [← importRecording_eq_bind]
  rcases runUnder_importOpened_cases refuses models hex recordingHex eventHexes doc n s
    with ⟨r₁, n₁, s₁, hparse₁, hadd, hrefuses, hopened⟩ | ⟨e, n₁, hopened⟩
  · obtain rfl : r₁ = r := Except.ok.inj (hparse₁.symm.trans hparse)
    rw [Prog.runUnder_bind_ok hopened] at hout
    rw [hout]
    rcases settled_eq_or recordingHex eventHexes s r₁ with ⟨-, hsettled⟩ | ⟨hnew, hsettled⟩
    · exact importFrame_of_rekeyed hsettled hadd n₁
    · exact importFrame_of_kept hguards hs (hguards _ _ _ hrefuses) hsettled hnew hadd h n₁
  · -- nothing was opened
    rw [Prog.runUnder_bind_error hopened] at hout
    rw [hout]
    exact ⟨fun id _ => .refl s id, fun r' hr' => by cases hr'⟩

/-- **The frame of an import.** Whichever of its steps fail, an import leaves the other recordings
alone and loses no event, exactly when the events of the bundle stay inside. -/
theorem importFrame_iff (hs : db.holds s = true) (hparse : parseBundle models doc = .ok r)
    (order : RowOrder) (hex recordingHex : String) (eventHexes : List String) :
    (∀ refuses : ℕ → Store → Store → Option Error, db.Guards refuses → ∀ n : ℕ,
      let out := (importRecording models order hex recordingHex eventHexes doc).runUnder refuses n s
      ImportFrame recordingHex eventHexes r s out.2.2 out.1) ↔ StaysInside db hex r s := by
  refine ⟨fun h => ?_, fun h refuses hguards n => importFrame_of_staysInside hguards hs hparse h n⟩
  by_contra hleaves
  unfold StaysInside at hleaves
  push Not at hleaves
  obtain ⟨hnone, hinsertable, ⟨e₀, he₀, hne⟩, hforeign⟩ := hleaves
  have hfind : s.recordings.find? r.recordingId = none := by simpa using hnone
  have hsettled : settled recordingHex eventHexes s r = r := by
    rw [settled, hfind, Option.isSome_none, if_neg Bool.false_ne_true]
  -- only what does not fit is refused: the rows go in
  obtain ⟨s₁, hrow⟩ : ∃ s₁, s.addRecording (r.asNew.row hex) = .ok ((), s₁) :=
    Store.exists_addRecording hinsertable.free
  have hs₁ : db.holds s₁ = true := (Database.holds_addRecording_iff hs hrow).mpr hinsertable.row
  obtain ⟨hrecordings, hevents, -, hblobs⟩ := Store.addRecording_eq_ok hrow
  obtain ⟨s₂, hrows⟩ : ∃ s₂, s₁.addEvents (redactedRows r.events []) = .ok ((), s₂) :=
    Store.exists_addEvents (by rw [hevents]; exact hinsertable.distinct)
  obtain ⟨happended, hkept, -, hblobs₂⟩ := Store.addEvents_eq_ok hrows
  have hs₂ : db.holds s₂ = true := by
    refine (Database.holds_addEvents_iff hs₁ hrows).mpr fun row hmem => ?_
    exact ⟨(hinsertable.rows row hmem).1,
      (refers_opened_iff hrow row).mpr (hinsertable.rows row hmem).2⟩
  obtain ⟨n, hopened⟩ := runUnder_openImported_eq hrow hs₁ hrows hs₂ order 1
  have hrun := runUnder_importRecording_eq hparse (n := 0) (Database.refuses_eq_none_iff.mpr hs)
    order hex recordingHex eventHexes
  rw [hsettled, hopened] at hrun
  have hframe := h db.refuses db.guards_refuses 0
  rw [hrun] at hframe
  -- the row of an event of the bundle, under the id the event carries
  have hinserted : ∀ e ∈ r.events, ⟨redact e, none⟩ ∈ s₂.eventRows e.recordingId := by
    intro e he
    refine Store.mem_eventRows.mpr ⟨?_, rfl⟩
    rw [happended]
    exact List.mem_append_right _ (mem_redactedRows [] he)
  have hnotin : r.recordingId ∉ s.recordings.rows.map RecordingRow.recordingId :=
    Table.find?_eq_none_iff.mp hfind
  by_cases hfinishable : Finishable db s r
  · -- the import succeeds without the event that names another recording
    have hchosen : r.asNew.chosenId hex = r.recordingId := chosenId_asNew hfinishable.named hex
    obtain ⟨path, hpath, htakes⟩ := BlobRoot.takesKey_iff.mp hfinishable.file
    have hown : s₂.recordings.find? r.recordingId = some (r.asNew.row hex) := by
      refine Table.find?_eq_some_iff.mpr ⟨?_, hchosen⟩
      rw [hkept, hrecordings]
      exact List.mem_append_right _ (List.mem_singleton_self _)
    have hs₃ : db.holds (s₂.finished (r.asNew.row hex)
        (correlate (s₂.eventsFor order r.recordingId)) path) = true := by
      refine (Database.holds_finished_iff hs₂ hchosen).mpr fun i hi => hfinishable.numbers i ?_
      rwa [← length_eventRows_opened hrow hrows]
    obtain ⟨n', hfinish⟩ := runUnder_finishRecording db.refuses order n hown hpath
      (by rwa [hblobs₂, hblobs]) (fun _ => Database.refuses_eq_none_iff.mpr hs₂)
      (fun _ _ => Database.refuses_eq_none_iff.mpr hs₂)
      (fun _ _ => Database.refuses_eq_none_iff.mpr hs₃)
    rw [hfinish] at hframe
    obtain ⟨n, parent, hmem⟩ := hframe.complete _ rfl e₀ (by rwa [hsettled])
    obtain ⟨e, he, heq⟩ := mem_correlate hmem
    obtain ⟨row, -, -, hid⟩ := Store.mem_eventsFor.mp he
    exact hne ((congrArg Event.recordingId heq).trans hid)
  · -- an event lands in a recording that was there
    obtain ⟨e, he, hmem⟩ := hforeign hfinishable
    have hother : e.recordingId ≠ r.recordingId := fun heq => hnotin (heq ▸ hmem)
    have hsame := (hframe.untouched e.recordingId hmem).events
    rw [eventRows_runUnder_finishRecording db.refuses hother] at hsame
    have hold : ⟨redact e, none⟩ ∈ s.events.rows :=
      (Store.mem_eventRows.mp (hsame ▸ hinserted e he)).1
    have hnd := hinsertable.distinct
    rw [List.map_append, List.nodup_append'] at hnd
    exact hnd.2.2 (List.mem_map_of_mem hold)
      (List.mem_map.mpr ⟨⟨redact e, none⟩, mem_redactedRows [] he, rfl⟩)

end Frame

/-- A store whose only recording is finished and has no events. -/
def finishedStore : Store :=
  .withRecording { recordingId := "rec_1", kind := .capture, status := .completed }

/-- A bundle under another id, whose event carries the id of that recording. -/
def foreignEvent : Recording where
  recordingId := "rec_2"
  events := [.brief .httpRequest "evt_a" "corr_a" 0]

theorem parseBundle_foreignEvent :
    parseBundle strictModels (buildBundle "" foreignEvent) = .ok foreignEvent :=
  parseBundle_buildBundle strictModels_roundTrip "" (by decide)

theorem insertable_foreignEvent : Insertable .postgres "" finishedStore foreignEvent :=
  ⟨by decide, by decide, by decide, by decide⟩

theorem importFrame_iff_foreign :
    ¬∀ refuses : ℕ → Store → Store → Option Error, Database.postgres.Guards refuses → ∀ n : ℕ,
      let out := (importRecording strictModels .bySequence "" "" []
        (buildBundle "" foreignEvent)).runUnder refuses n finishedStore
      ImportFrame "" [] foreignEvent finishedStore out.2.2 out.1 := by
  rw [importFrame_iff (by decide) parseBundle_foreignEvent .bySequence "" "" []]
  rintro (hfound | hinsertable | hown | ⟨-, hforeign⟩)
  · exact absurd hfound (by decide)
  · exact hinsertable insertable_foreignEvent
  · exact absurd hown (by decide)
  · exact absurd hforeign (by decide)

/-- The import adds its event to the recording that was there. -/
theorem not_importFrame_foreign :
    ¬∀ (models : Models) (db : Database) (order : RowOrder) (hex recordingHex : String)
      (eventHexes : List String) (doc : Dict String Value) (r : Recording)
      (refuses : ℕ → Store → Store → Option Error) (n : ℕ) (s : Store), db.holds s = true →
      db.Guards refuses → parseBundle models doc = .ok r →
      let out := (importRecording models order hex recordingHex eventHexes doc).runUnder refuses n s
      ImportFrame recordingHex eventHexes r s out.2.2 out.1 := by
  intro h
  have hframe := h strictModels .postgres .bySequence "" "" [] _ foreignEvent
    Database.postgres.refuses 0 finishedStore (by decide) (Database.guards_refuses _)
    parseBundle_foreignEvent
  have hevents := (hframe.untouched "rec_1" (by decide)).events
  unfold importRecording at hevents
  rw [parseBundle_foreignEvent] at hevents
  exact absurd (congrArg List.length hevents) (by decide)

end InfraReplay
