import InfraReplay.Recording.Reimport

/-!
# What an import changes

`import_recording` commits the recording row, then the events, then the finished recording, and
undoes nothing. Here each of its steps may fail (`Prog.runUnder`): what an import that raises leaves
in the tables (`tables_of_import_raised`), and when it leaves every other recording alone
(`importFrame_iff`). An event is stored under the recording id it carries, so a bundle can add
events to a recording it does not name.
-/

namespace InfraReplay

open Python

variable {refuses : ℕ → Store → Store → Option Error} {s s' : Store} {order : RowOrder}
  {recordingId : String}

/-! ### The three operations when steps fail -/

variable (refuses) in
/-- Opening a recording adds its row, or it raises and changes nothing. -/
theorem runUnder_startRecording_cases (new : NewRecording) (hex : String) (n : ℕ) (s : Store) :
    (∃ s', s.addRecording (new.row hex) = .ok ((), s') ∧ refuses n s s' = none ∧
      (startRecording new hex).runUnder refuses n s = (.ok (new.chosenId hex), n + 1, s')) ∨
    ∃ e, (startRecording new hex).runUnder refuses n s = (.error e, n + 1, s) := by
  unfold startRecording
  rcases Prog.runUnder_tx_cases refuses (Store.addRecording (new.row hex)) n s with
    ⟨_, s', hadd, hrefuses, hrun⟩ | ⟨e, hrun⟩
  · exact .inl ⟨s', hadd, hrefuses, Prog.runUnder_bind_ok hrun⟩
  · exact .inr ⟨e, Prog.runUnder_bind_error hrun⟩

variable (refuses) in
/-- Appending adds all rows, or it raises and changes nothing. -/
theorem runUnder_appendEvents_cases (recordingId : String) (events : List Event)
    (links : Dict String String) (n : ℕ) (s : Store) :
    (∃ n' s', s.addEvents (redactedRows events links) = .ok ((), s') ∧
      (events ≠ [] → refuses n s s' = none) ∧
      (appendEvents recordingId events links).runUnder refuses n s =
        (.ok (events.map redact), n', s')) ∨
    ∃ e n', (appendEvents recordingId events links).runUnder refuses n s = (.error e, n', s) := by
  by_cases hnil : events = []
  · subst hnil
    exact .inl ⟨n, s, Store.addEvents_nil s, fun hne => absurd rfl hne, rfl⟩
  unfold appendEvents
  rw [if_neg hnil]
  rcases Prog.runUnder_tx_cases refuses (Store.addEvents (redactedRows events links))
    n s with ⟨_, s', hadd, hrefuses, hrun⟩ | ⟨e, hrun⟩
  · exact .inl ⟨n + 1, s', hadd, fun _ => hrefuses, Prog.runUnder_bind_ok hrun⟩
  · exact .inr ⟨e, n + 1, Prog.runUnder_bind_error hrun⟩

variable (refuses) in
/-- Appending goes through when the rows can be added and that is not refused. -/
theorem runUnder_appendEvents {events : List Event} {links : Dict String String} (n : ℕ)
    (h : s.addEvents (redactedRows events links) = .ok ((), s'))
    (hrefuses : ∀ n, refuses n s s' = none) (recordingId : String) :
    ∃ n', (appendEvents recordingId events links).runUnder refuses n s =
      (.ok (events.map redact), n', s') := by
  by_cases hnil : events = []
  · subst hnil
    obtain rfl : s = s' := congrArg Prod.snd (Except.ok.inj ((Store.addEvents_nil s).symm.trans h))
    exact ⟨n, rfl⟩
  · unfold appendEvents
    rw [if_neg hnil]
    exact ⟨n + 1, Prog.runUnder_bind_ok (Prog.runUnder_tx_ok h (hrefuses n))⟩

variable (refuses) in
/-- Finishing goes through, or it raises and leaves both tables alone; the snapshot file may have
been written. -/
theorem runUnder_finishRecording_cases (order : RowOrder) (recordingId : String) (n : ℕ)
    (s : Store) :
    (∃ row path n' n₁ s₁, s.recordings.find? recordingId = some row ∧
      pathFor (snapshotKey recordingId) = some path ∧ s.blobs.takes path = true ∧
      refuses n₁ s₁ (s.finished row (correlate (s.eventsFor order recordingId)) path) = none ∧
      (finishRecording order recordingId).runUnder refuses n s =
        (.ok (rowToRecording { row with status := .completed }
            (correlate (s.eventsFor order recordingId))),
          n', s.finished row (correlate (s.eventsFor order recordingId)) path)) ∨
    ∃ e n' s', (finishRecording order recordingId).runUnder refuses n s = (.error e, n', s') ∧
      s'.recordings = s.recordings ∧ s'.events = s.events := by
  unfold finishRecording
  -- the row is read
  rcases Prog.runUnder_read_cases refuses
    (fun s : Store => s.recordings.find? recordingId) n s with ⟨-, hread⟩ | ⟨e, hread⟩
  · rw [Prog.runUnder_bind_ok hread]
    cases hrow : s.recordings.find? recordingId with
    | none => exact .inr ⟨_, _, s, rfl, rfl, rfl⟩
    | some row =>
      obtain rfl : row.recordingId = recordingId := (Table.find?_eq_some_iff.mp hrow).2
      simp only
      -- the events are read
      rcases Prog.runUnder_read_cases refuses
        (fun s => correlate (s.eventsFor order row.recordingId)) (n + 1) s with
        ⟨-, hevents⟩ | ⟨e, hevents⟩
      · rw [Prog.runUnder_bind_ok hevents]
        -- the file is written
        rcases Prog.runUnder_call_cases refuses
          (Store.putBlob (snapshotKey row.recordingId)
            (snapshotDoc row (correlate (s.eventsFor order row.recordingId)))) (n + 1 + 1) s with
          ⟨-, hblob⟩ | ⟨e, hblob⟩
        · rcases hput : s.putBlob (snapshotKey row.recordingId)
            (snapshotDoc row (correlate (s.eventsFor order row.recordingId))) with ⟨e | path, s₁⟩
          · rw [hput] at hblob
            obtain ⟨-, b, rfl, -⟩ := Store.putBlob_eq_error hput
            exact .inr ⟨e, _, _, Prog.runUnder_bind_error hblob, rfl, rfl⟩
          · rw [hput] at hblob
            rw [Prog.runUnder_bind_ok hblob]
            -- the rows are committed
            rcases Prog.runUnder_tx_cases refuses (fun t : Store => Except.ok ((),
                t.complete row.recordingId (correlate (s.eventsFor order row.recordingId)) path))
              (n + 1 + 1 + 1) s₁ with ⟨_, s₂, hcomplete, hrefuses, hcommit⟩ | ⟨e, hcommit⟩
            · obtain rfl : s.finished row (correlate (s.eventsFor order row.recordingId)) path =
                  s₂ := by
                rw [Store.finished, hput]
                exact congrArg Prod.snd (Except.ok.inj hcomplete)
              exact .inl ⟨row, path, _, _, s₁, rfl, (Store.putBlob_eq_ok hput).1,
                Store.takes_of_putBlob hput, hrefuses, Prog.runUnder_bind_ok hcommit⟩
            · obtain ⟨-, b, rfl, -⟩ := Store.putBlob_eq_ok hput
              exact .inr ⟨e, _, _, Prog.runUnder_bind_error hcommit, rfl, rfl⟩
        · rw [Prog.runUnder_bind_error hblob]
          exact .inr ⟨e, _, s, rfl, rfl, rfl⟩
      · rw [Prog.runUnder_bind_error hevents]
        exact .inr ⟨e, _, s, rfl, rfl, rfl⟩
  · rw [Prog.runUnder_bind_error hread]
    exact .inr ⟨e, _, s, rfl, rfl, rfl⟩

variable (refuses order) in
/-- Finishing goes through when none of its steps is refused. -/
theorem runUnder_finishRecording {row : RecordingRow} {path : List String} (n : ℕ)
    (hrow : s.recordings.find? recordingId = some row)
    (hpath : pathFor (snapshotKey recordingId) = some path) (htakes : s.blobs.takes path = true)
    (hread : ∀ n, refuses n s s = none)
    (hblob : ∀ n b, refuses n s { s with blobs := b } = none)
    (hcommit : ∀ n s₁, refuses n s₁
      (s.finished row (correlate (s.eventsFor order recordingId)) path) = none) :
    ∃ n', (finishRecording order recordingId).runUnder refuses n s =
      (.ok (rowToRecording { row with status := .completed }
          (correlate (s.eventsFor order recordingId))),
        n', s.finished row (correlate (s.eventsFor order recordingId)) path) := by
  obtain rfl : row.recordingId = recordingId := (Table.find?_eq_some_iff.mp hrow).2
  obtain ⟨s₁, hput⟩ := Store.exists_putBlob hpath htakes
    (snapshotDoc row (correlate (s.eventsFor order row.recordingId)))
  have hcommitted : s.finished row (correlate (s.eventsFor order row.recordingId)) path =
      s₁.complete row.recordingId (correlate (s.eventsFor order row.recordingId)) path := by
    rw [Store.finished, hput]
  have hcall : (Prog.call (Store.putBlob (snapshotKey row.recordingId) (snapshotDoc row
      (correlate (s.eventsFor order row.recordingId))))).runUnder refuses (n + 1 + 1) s =
        (.ok path, n + 1 + 1 + 1, s₁) := by
    rw [Prog.runUnder_call (hblob _ _), hput]
  -- two reads, the snapshot and the commit, none of which fails
  refine ⟨n + 1 + 1 + 1 + 1, ?_⟩
  rw [finishRecording, Prog.runUnder_bind_ok (Prog.runUnder_read (hread n) _), hrow]
  simp only
  rw [hcommitted] at hcommit ⊢
  rw [Prog.runUnder_bind_ok (Prog.runUnder_read (hread _) _), Prog.runUnder_bind_ok hcall,
    Prog.runUnder_bind_ok (Prog.runUnder_tx_ok rfl (hcommit _ _))]
  rfl

/-! ### What an import that raises leaves in the tables -/

/-- `import_recording` up to the commit of the recording row. -/
def importOpened (models : Models) (hex recordingHex : String) (eventHexes : List String)
    (doc : Dict String Value) : Prog Store Error Recording :=
  match parseBundle models doc with
  | .error e => throw e
  | .ok recording => do
    let status ← getStatus recording.recordingId
    let recording := if status.isSome then rekey recordingHex eventHexes recording else recording
    let _ ← startRecording recording.asNew hex
    return recording

/-- `import_recording` after the commit of the recording row. -/
def importRest (order : RowOrder) (recording : Recording) : Prog Store Error Recording := do
  let _ ← appendEvents recording.recordingId recording.events
  finishRecording order recording.recordingId

/-- A second half that succeeds inserted the events, found the row of the recording and finished
it, and neither commit was refused. -/
theorem importRest_eq_ok {r r' : Recording} {n n' : ℕ}
    (h : (importRest order r).runUnder refuses n s = (.ok r', n', s')) :
    ∃ s₁, s.addEvents (redactedRows r.events []) = .ok ((), s₁) ∧
      (r.events ≠ [] → refuses n s s₁ = none) ∧
      ∃ row path, s₁.recordings.find? r.recordingId = some row ∧
        pathFor (snapshotKey r.recordingId) = some path ∧ s₁.blobs.takes path = true ∧
        (∃ n₂ s₂, refuses n₂ s₂ (s₁.finished row (correlate (s₁.eventsFor order r.recordingId))
          path) = none) ∧
        r' = rowToRecording { row with status := .completed }
          (correlate (s₁.eventsFor order r.recordingId)) := by
  unfold importRest at h
  -- the import returned, so neither of its two parts raised
  rcases runUnder_appendEvents_cases refuses r.recordingId r.events [] n s with
    ⟨n₁, s₁, hadd, hrefuses, happend⟩ | ⟨e, n₁, happend⟩
  · rw [Prog.runUnder_bind_ok happend] at h
    rcases runUnder_finishRecording_cases refuses order r.recordingId n₁ s₁ with
      ⟨row, path, n₃, n₂, s₂, hrow, hpath, htakes, hcommit, hfinish⟩ | ⟨e, n₂, s₂, hfinish, -, -⟩
    · rw [hfinish] at h
      exact ⟨s₁, hadd, hrefuses, row, path, hrow, hpath, htakes, ⟨n₂, s₂, hcommit⟩,
        (Except.ok.inj (congrArg Prod.fst h)).symm⟩
    · rw [hfinish] at h
      cases congrArg Prod.fst h
  · rw [Prog.runUnder_bind_error happend] at h
    cases congrArg Prod.fst h

section Import

variable {models : Models} {hex recordingHex : String} {eventHexes : List String}
  {doc : Dict String Value}

theorem openImported_eq (order : RowOrder) (hex : String) (r : Recording) :
    openImported order hex r = startRecording r.asNew hex >>= fun _ => importRest order r := rfl

theorem uncaught_openImported (order : RowOrder) (hex : String) (r : Recording) :
    (openImported order hex r).Uncaught :=
  (uncaught_startRecording _ hex).bind fun _ =>
    (uncaught_appendEvents _ _ _).bind fun _ => uncaught_finishRecording order _

/-- An import catches nothing. -/
theorem uncaught_importRecording (models : Models) (order : RowOrder) (hex recordingHex : String)
    (eventHexes : List String) (doc : Dict String Value) :
    (importRecording models order hex recordingHex eventHexes doc).Uncaught := by
  unfold importRecording
  cases parseBundle models doc with
  | error e => trivial
  | ok recording => exact (Prog.uncaught_read _).bind fun _ => uncaught_openImported order hex _

/-- An import is its two halves. -/
theorem importRecording_eq_bind (models : Models) (order : RowOrder) (hex recordingHex : String)
    (eventHexes : List String) (doc : Dict String Value) :
    importRecording models order hex recordingHex eventHexes doc =
      importOpened models hex recordingHex eventHexes doc >>= importRest order := by
  unfold importRecording importOpened
  cases parseBundle models doc with
  | error e => rfl
  | ok recording =>
    rw [bind_assoc]
    refine congrArg (getStatus recording.recordingId >>= ·) (funext fun status => ?_)
    rw [openImported_eq]
    show _ = (startRecording _ hex >>= fun _ => pure _) >>= importRest order
    rw [bind_assoc]
    rfl

/-- When the status is read, an import is the opening of its settled recording. -/
theorem runUnder_importRecording_eq {r : Recording} (hparse : parseBundle models doc = .ok r)
    {n : ℕ} (hread : refuses n s s = none) (order : RowOrder) (hex recordingHex : String)
    (eventHexes : List String) :
    (importRecording models order hex recordingHex eventHexes doc).runUnder refuses n s =
      (openImported order hex (settled recordingHex eventHexes s r)).runUnder refuses (n + 1)
        s := by
  unfold importRecording
  rw [hparse]
  show (_ >>= _ : Prog Store Error Recording).runUnder refuses n s = _
  rw [getStatus, Prog.runUnder_bind_ok (Prog.runUnder_read hread _), Option.isSome_map]
  rfl

variable (refuses) in
/-- The first half adds the row of the settled recording, or it raises and changes nothing. -/
theorem runUnder_importOpened_cases (models : Models) (hex recordingHex : String)
    (eventHexes : List String) (doc : Dict String Value) (n : ℕ) (s : Store) :
    (∃ r n' s', parseBundle models doc = .ok r ∧
      s.addRecording ((settled recordingHex eventHexes s r).asNew.row hex) = .ok ((), s') ∧
      refuses (n + 1) s s' = none ∧
      (importOpened models hex recordingHex eventHexes doc).runUnder refuses n s =
        (.ok (settled recordingHex eventHexes s r), n', s')) ∨
    ∃ e n', (importOpened models hex recordingHex eventHexes doc).runUnder refuses n s =
      (.error e, n', s) := by
  unfold importOpened
  cases hparse : parseBundle models doc with
  | error e => exact .inr ⟨e, n, rfl⟩
  | ok r =>
    have hisSome : ((s.recordings.find? r.recordingId).map RecordingRow.status).isSome =
        (s.recordings.find? r.recordingId).isSome := Option.isSome_map
    show _ ∨ ∃ e n', (getStatus r.recordingId >>= _).runUnder refuses n s = _
    unfold getStatus
    rcases Prog.runUnder_read_cases refuses
      (fun s : Store => (s.recordings.find? r.recordingId).map RecordingRow.status) n s with
      ⟨-, hread⟩ | ⟨e, hread⟩
    -- the status that was read decides which recording is opened
    · rcases runUnder_startRecording_cases refuses
        (settled recordingHex eventHexes s r).asNew hex (n + 1) s with
        ⟨s', hadd, hrefuses, hstart⟩ | ⟨e, hstart⟩
      · refine .inl ⟨r, n + 1 + 1, s', rfl, hadd, hrefuses, ?_⟩
        show (Prog.read _ >>= _).runUnder refuses n s = _
        rw [Prog.runUnder_bind_ok hread, hisSome]
        exact Prog.runUnder_bind_ok hstart
      · refine .inr ⟨e, n + 1 + 1, ?_⟩
        rw [Prog.runUnder_bind_ok hread, hisSome]
        exact Prog.runUnder_bind_error hstart
    · exact .inr ⟨e, n + 1, Prog.runUnder_bind_error hread⟩

/-- **What a failed import leaves.** When it raises before its recording row is committed, both
tables are as before. When it raises later, its row stays; the events table is as before when
appending raised, and has the events of the bundle when finishing did. -/
theorem tables_of_import_raised {e : Error} {n n' : ℕ}
    (h : (importRecording models order hex recordingHex eventHexes doc).runUnder refuses n s =
      (.error e, n', s')) :
    match (importOpened models hex recordingHex eventHexes doc).runUnder refuses n s with
    | (.error _, _, _) => s'.recordings = s.recordings ∧ s'.events = s.events
    | (.ok r, n₁, s₁) =>
      s'.recordings.rows = s.recordings.rows ++ [r.asNew.row hex] ∧
        match (appendEvents r.recordingId r.events).runUnder refuses n₁ s₁ with
        | (.error _, _, _) => s'.events = s.events
        | (.ok _, _, _) => s'.events.rows = s.events.rows ++ redactedRows r.events [] := by
  rw [importRecording_eq_bind] at h
  -- which of the three transactions raised says what is left in the tables
  rcases runUnder_importOpened_cases refuses models hex recordingHex eventHexes doc n s
    with ⟨r, n₁, s₁, -, hadd, -, hopened⟩ | ⟨e', n₁, hopened⟩
  · obtain ⟨hrecordings, hevents, -, -⟩ := Store.addRecording_eq_ok hadd
    rw [Prog.runUnder_bind_ok hopened] at h
    rw [hopened]
    generalize settled recordingHex eventHexes s r = r' at h hrecordings ⊢
    unfold importRest at h
    simp only
    rcases runUnder_appendEvents_cases refuses r'.recordingId r'.events [] n₁ s₁ with
      ⟨n₂, s₂, hrows, -, happend⟩ | ⟨e', n₂, happend⟩
    · obtain ⟨happended, hkept, -, -⟩ := Store.addEvents_eq_ok hrows
      rw [Prog.runUnder_bind_ok happend] at h
      rw [happend]
      rcases runUnder_finishRecording_cases refuses order r'.recordingId n₂ s₂ with
        ⟨row, path, n₃, -, -, -, -, -, -, hfinish⟩ | ⟨e', n₃, s₃, hfinish, hr, he⟩
      · -- the import would have returned
        rw [hfinish] at h
        simp at h
      · rw [hfinish] at h
        obtain ⟨-, -, rfl⟩ : _ ∧ _ ∧ s₃ = s' := by simpa using h
        rw [hr, hkept, he, happended, hevents]
        exact ⟨hrecordings, rfl⟩
    · rw [Prog.runUnder_bind_error happend] at h
      rw [happend]
      obtain ⟨-, -, rfl⟩ : _ ∧ _ ∧ s₁ = s' := by simpa using h
      exact ⟨hrecordings, hevents⟩
  · rw [Prog.runUnder_bind_error hopened] at h
    rw [hopened]
    obtain ⟨-, -, rfl⟩ : _ ∧ _ ∧ s = s' := by simpa using h
    exact ⟨rfl, rfl⟩

end Import

/-- A recording whose two events have one id. -/
def repeatedEvent : Recording where
  recordingId := "rec_1"
  events := [.brief .httpRequest "evt_a" "corr_a" 0, .brief .httpRequest "evt_a" "corr_a" 1]

theorem parseBundle_repeatedEvent :
    parseBundle strictModels (buildBundle "" repeatedEvent) = .ok repeatedEvent :=
  parseBundle_buildBundle strictModels_roundTrip "" (by decide)

/-- Its import raises when the events are appended, and the row of the recording stays. -/
theorem runUnder_repeatedEvent :
    (importRecording strictModels .bySequence "" "" [] (buildBundle "" repeatedEvent)).runUnder
      (fun _ _ _ => none) 0 Store.empty =
        (.error .integrity, 3, .withRecording (repeatedEvent.asNew.row "")) := by
  unfold importRecording
  rw [parseBundle_repeatedEvent]
  rfl

theorem tables_of_import_raised_repeated :
    ∃ s', (importRecording strictModels .bySequence "" "" []
        (buildBundle "" repeatedEvent)).runUnder (fun _ _ _ => none) 0 Store.empty =
          (.error .integrity, 3, s') ∧
      s'.recordings.rows = [repeatedEvent.asNew.row ""] ∧ s'.events = Store.empty.events := by
  have hleft := tables_of_import_raised runUnder_repeatedEvent
  have hopened : (importOpened strictModels "" "" [] (buildBundle "" repeatedEvent)).runUnder
      (fun _ _ _ => none) 0 Store.empty =
        (.ok repeatedEvent, 2, .withRecording (repeatedEvent.asNew.row "")) := by
    unfold importOpened
    rw [parseBundle_repeatedEvent]
    rfl
  rw [hopened] at hleft
  exact ⟨_, runUnder_repeatedEvent, hleft⟩

/-- An import that raises can leave a row behind. -/
theorem not_tables_unchanged_repeated :
    ¬∀ (models : Models) (order : RowOrder) (hex recordingHex : String) (eventHexes : List String)
      (doc : Dict String Value) (refuses : ℕ → Store → Store → Option Error) (n n' : ℕ)
      (s s' : Store) (e : Error),
      (importRecording models order hex recordingHex eventHexes doc).runUnder refuses n s =
        (.error e, n', s') → s'.recordings = s.recordings ∧ s'.events = s.events := by
  intro h
  have hsame := (h _ _ _ _ _ _ _ _ _ _ _ _ runUnder_repeatedEvent).1
  exact absurd (congrArg (fun t => t.rows.length) hsame) (by decide)

end InfraReplay
