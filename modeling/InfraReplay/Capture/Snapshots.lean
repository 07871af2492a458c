import InfraReplay.Capture.Lifecycle

/-!
# The snapshots of several recordings

Recordings are opened, filled, failed and finished side by side. `finish_recording` writes the
snapshot to the file that the recording id names and commits the locator afterwards. An id names
its file by its path segments (`pathParts_snapshotKey_inj`), so `rec_1` and `rec_1/` share one; the
storage refuses `..` and nothing else.

Every completed recording keeps its own snapshot in every run in which nothing is written to a file
that another recording is using (`ownSnapshots_of_apart`).
-/

namespace InfraReplay

open Python

/-! ### The tasks -/

/-- A call of the service other than `finish_recording`; each is one transaction. -/
inductive ServiceCall where
  | startRecording (new : NewRecording) (hex : String)
  | appendEvents (recordingId : String) (events : List Event) (links : Dict String String)
  | failRecording (recordingId reason : String)
  | linkReplayEvents (replayRecordingId : String) (links : Dict String String)
  | saveComparison (replayRecordingId : String) (results : List ComparisonResult)

/-- The program of a call. -/
def ServiceCall.code : ServiceCall → Prog Store Error Unit
  | .startRecording new hex => (InfraReplay.startRecording new hex).discard
  | .appendEvents recordingId events links =>
    (InfraReplay.appendEvents recordingId events links).discard
  | .failRecording recordingId reason => InfraReplay.failRecording recordingId reason
  | .linkReplayEvents replayRecordingId links =>
    InfraReplay.linkReplayEvents replayRecordingId links
  | .saveComparison replayRecordingId results =>
    InfraReplay.saveComparison replayRecordingId results

/-- The store and the `finish_recording` calls, each with its recording. -/
structure Archive where
  store : Store
  calls : List (String × Finisher)
  /-- The snapshot that was written last for each recording. No code reads it. -/
  written : Dict String Value

/-- What happens next. -/
inductive ArchiveTurn where
  /-- Another call of the service. -/
  | service (call : ServiceCall)
  /-- `finish_recording` is called. -/
  | finish (recordingId : String)
  /-- A `finish_recording` call takes its next step. -/
  | finisher (i : ℕ)
  /-- A step of a `finish_recording` call raises. -/
  | crash (i : ℕ) (e : Error)

namespace Archive

/-- Note the snapshot that a step has written. -/
def note (recordingId : String) (written : Dict String Value) : Finisher → Dict String Value
  | .hasBlob row events _ => written.set recordingId (snapshotDoc row events)
  | _ => written

/-- One turn. -/
def step (order : RowOrder) (a : Archive) : ArchiveTurn → Option Archive
  | .service call => some { a with store := (call.code.run a.store).2 }
  | .finish recordingId => some { a with calls := a.calls ++ [(recordingId, .start)] }
  | .finisher i =>
    a.calls[i]?.bind fun call =>
      (call.2.step order call.1 a.store).map fun r =>
        { store := r.2
          calls := a.calls.set i (call.1, r.1)
          written := note call.1 a.written r.1 }
  | .crash i e =>
    a.calls[i]?.map fun call => { a with calls := a.calls.set i (call.1, .raised e) }

/-- Every completed recording has its own snapshot at its locator. -/
def OwnSnapshots (a : Archive) : Prop :=
  ∀ row ∈ a.store.recordings.rows, row.status = .completed →
    ∃ path document, row.blobLocator = some path ∧
      a.written.get? row.recordingId = some document ∧ a.store.blobs.file? path = some document

/-- No recording is completed and no call has been made. -/
structure Starting (a : Archive) : Prop where
  recordings : ∀ row ∈ a.store.recordings.rows, row.status ≠ .completed
  calls : a.calls = []

/-- Two recordings with one snapshot file. -/
def shareFile (recordingId recordingId' : String) : Bool :=
  recordingId ≠ recordingId' ∧ idSegments recordingId = idSegments recordingId'

/-- The call has written the snapshot and not committed. -/
def hasWritten : Finisher → Bool
  | .hasBlob _ _ _ => true
  | _ => false

/-- The turn writes a snapshot to a file that another recording is using: it is completed, or its
call has written the file and not committed. -/
def overwrites (a : Archive) : ArchiveTurn → Bool
  | .finisher i =>
    match a.calls[i]? with
    | some (recordingId, .hasEvents _ _) =>
      (a.store.recordings.rows.any fun row =>
          row.status = .completed ∧ shareFile row.recordingId recordingId) ||
        a.calls.any fun call => hasWritten call.2 ∧ shareFile call.1 recordingId
    | _ => false
  | _ => false

/-! ### The invariant -/

/-- The file is the recording's and has what was written last for it. -/
def Has (written : Dict String Value) (s : Store) (recordingId : String) (path : List String) :
    Prop :=
  pathFor (snapshotKey recordingId) = some path ∧
    ∃ document, written.get? recordingId = some document ∧ s.blobs.file? path = some document

/-- Completed recordings and calls that are about to commit have their own files. -/
structure Inv (calls : List (String × Finisher)) (written : Dict String Value) (s : Store) :
    Prop where
  completed : ∀ row ∈ s.recordings.rows, row.status = .completed →
    ∃ path, row.blobLocator = some path ∧ Has written s row.recordingId path
  writing : ∀ recordingId row events path, (recordingId, .hasBlob row events path) ∈ calls →
    Has written s recordingId path

variable {order : RowOrder} {calls : List (String × Finisher)} {written : Dict String Value}
  {s s' : Store} {recordingId : String}

/-- A transaction that writes no file and completes no recording keeps the invariant. -/
theorem Inv.of_frame (hinv : Inv calls written s)
    (hfiles : ∀ p, s'.blobs.file? p = s.blobs.file? p)
    (hrows : ∀ row ∈ s'.recordings.rows, row.status = .completed → row ∈ s.recordings.rows) :
    Inv calls written s' where
  completed row hrow hstatus := by
    obtain ⟨path, hlocator, hhas⟩ := hinv.completed row (hrows row hrow hstatus) hstatus
    exact ⟨path, hlocator, by rwa [Has, hfiles]⟩
  writing recordingId row events path hmem := by
    rw [Has, hfiles]
    exact hinv.writing recordingId row events path hmem

/-- No call but `finish_recording` writes a file or completes a recording. -/
theorem safe_serviceCall (call : ServiceCall) :
    call.code.Safe (Inv calls written) fun _ => True := by
  -- no call writes a file or completes a recording, so a frame is enough
  cases call with
  | startRecording new hex =>
    have hsafe : (InfraReplay.startRecording new hex).Safe (Inv calls written) fun _ => True := by
      refine Prog.Safe.tx_bind fun s _ s' hs hadd => ⟨?_, Prog.Safe.pure trivial⟩
      obtain ⟨hrows, -, -, hblobs⟩ := Store.addRecording_eq_ok hadd
      refine hs.of_frame (fun p => by rw [hblobs]) fun row hrow hstatus => ?_
      rw [hrows] at hrow
      rcases List.mem_append.mp hrow with hrow | hrow
      · exact hrow
      · -- a new recording is open
        rw [List.mem_singleton.mp hrow] at hstatus
        cases hstatus
    exact hsafe.discard
  | appendEvents recordingId events links =>
    have hsafe : (InfraReplay.appendEvents recordingId events links).Safe (Inv calls written)
        fun _ => True := by
      unfold InfraReplay.appendEvents
      split_ifs with hnil
      · trivial
      · refine Prog.Safe.tx_bind fun s _ s' hs hadd => ⟨?_, Prog.Safe.pure trivial⟩
        obtain ⟨-, hrecordings, -, hblobs⟩ := Store.addEvents_eq_ok hadd
        exact hs.of_frame (fun p => by rw [hblobs]) fun row hrow _ => hrecordings ▸ hrow
    exact hsafe.discard
  | failRecording recordingId reason =>
    unfold ServiceCall.code InfraReplay.failRecording
    refine Prog.Safe.tx fun s _ s' hs hfail => ⟨?_, trivial⟩
    cases hfail
    refine hs.of_frame (fun p => rfl) fun row hrow hstatus => ?_
    obtain ⟨row₀, hrow₀, rfl⟩ := List.mem_map.mp hrow
    split_ifs at hstatus ⊢
    · -- a failed recording is not completed
      cases hstatus
    · exact hrow₀
  | linkReplayEvents replayRecordingId links =>
    unfold ServiceCall.code InfraReplay.linkReplayEvents
    refine Prog.Safe.tx fun s _ s' hs hlink => ⟨?_, trivial⟩
    cases hlink
    obtain ⟨hrecordings, -, hblobs⟩ := Store.linkEvents_frame links s
    exact hs.of_frame (fun p => by rw [hblobs]) fun row hrow _ => hrecordings ▸ hrow
  | saveComparison replayRecordingId results =>
    unfold ServiceCall.code InfraReplay.saveComparison
    refine Prog.Safe.tx fun s _ s' hs hsave => ⟨?_, trivial⟩
    cases hsave
    exact hs.of_frame (fun p => rfl) fun row hrow _ => hrow

/-- A call that goes on without having written keeps the invariant. -/
theorem Inv.set_call (hinv : Inv calls written s) {i : ℕ} {f : Finisher}
    (hhas : ∀ row events path, f = .hasBlob row events path → Has written s recordingId path) :
    Inv (calls.set i (recordingId, f)) written s where
  completed := hinv.completed
  writing recordingId' row events path hmem := by
    rcases List.mem_or_eq_of_mem_set hmem with hmem | heq
    · exact hinv.writing recordingId' row events path hmem
    · obtain ⟨rfl, hf⟩ := Prod.mk.inj heq
      exact hhas row events path hf.symm

/-- Writing a snapshot leaves the files of the ids with other segments alone. -/
theorem Has.write {other : String} {path path' : List String} {document : Value}
    (hhas : Has written s other path)
    (hput : s.putBlob (snapshotKey recordingId) document = (.ok path', s'))
    (hapart : shareFile other recordingId = false) :
    Has (written.set recordingId document) s' other path := by
  obtain ⟨hpath, b, rfl, hfiles⟩ := Store.putBlob_eq_ok hput
  obtain ⟨hfor, document', hwritten, hget⟩ := hhas
  by_cases hid : other = recordingId
  · -- the recording's own file, written once more
    subst hid
    obtain rfl : path' = path := Option.some.inj (hpath.symm.trans hfor)
    exact ⟨hfor, document, by simp [Dict.get?_set], by rw [hfiles, if_pos rfl]⟩
  · -- two ids with one file would have the same segments
    have hne : path ≠ path' := by
      rintro rfl
      have hsegments : idSegments other = idSegments recordingId :=
        pathParts_snapshotKey_inj.mp ((pathFor_eq_some hfor).trans (pathFor_eq_some hpath).symm)
      simp [shareFile, hid, hsegments] at hapart
    refine ⟨hfor, document', ?_, ?_⟩
    · rwa [Dict.get?_set, if_neg (Ne.symm hid)]
    · rwa [hfiles, if_neg hne]

/-- Writing a snapshot keeps the invariant when no file that somebody relies on is written. -/
theorem Inv.write (hinv : Inv calls written s) {path : List String} {document : Value}
    (hput : s.putBlob (snapshotKey recordingId) document = (.ok path, s'))
    (hrows : ∀ row ∈ s.recordings.rows, row.status = .completed →
      shareFile row.recordingId recordingId = false)
    (hcalls : ∀ call ∈ calls, hasWritten call.2 = true → shareFile call.1 recordingId = false) :
    Inv calls (written.set recordingId document) s' where
  completed row hrow hstatus := by
    obtain ⟨-, b, rfl, -⟩ := Store.putBlob_eq_ok hput
    obtain ⟨path', hlocator, hhas⟩ := hinv.completed row hrow hstatus
    exact ⟨path', hlocator, hhas.write hput (hrows row hrow hstatus)⟩
  writing other row events path' hmem :=
    (hinv.writing other row events path' hmem).write hput (hcalls _ hmem rfl)

/-- The commit of a call that has written its snapshot completes its own recording only. -/
theorem Inv.complete (hinv : Inv calls written s) {path : List String}
    (hhas : Has written s recordingId path) (events : List Event) :
    Inv calls written (s.complete recordingId events path) := by
  have hkeep : ∀ {other path'}, Has written s other path' →
      Has written (s.complete recordingId events path) other path' := by
    intro other path' h
    rwa [Has, Store.blobs_complete]
  refine ⟨fun row hrow hstatus => ?_, fun other row events' path' hmem =>
    hkeep (hinv.writing other row events' path' hmem)⟩
  rw [Store.rows_complete] at hrow
  obtain ⟨row₀, hrow₀, rfl⟩ := List.mem_map.mp hrow
  split_ifs at hstatus ⊢ with hid
  · -- its locator is the path of the snapshot just written
    subst hid
    exact ⟨path, rfl, hkeep hhas⟩
  · obtain ⟨path', hlocator, hhas'⟩ := hinv.completed row₀ hrow₀ hstatus
    exact ⟨path', hlocator, hkeep hhas'⟩

/-- A step that does not write to another recording's file keeps the invariant. -/
theorem Inv.step_finisher (hinv : Inv calls written s) {i : ℕ} {f f' : Finisher}
    (hcall : calls[i]? = some (recordingId, f))
    (hapart : ∀ row events, f = .hasEvents row events →
      (∀ row' ∈ s.recordings.rows, row'.status = .completed →
        shareFile row'.recordingId recordingId = false) ∧
      ∀ call ∈ calls, hasWritten call.2 = true → shareFile call.1 recordingId = false)
    (hstep : f.step order recordingId s = some (f', s')) :
    Inv (calls.set i (recordingId, f')) (note recordingId written f') s' := by
  cases f with
  | start =>
    rw [Finisher.step] at hstep
    split at hstep
    · cases hstep
      exact hinv.set_call fun _ _ _ h => by cases h
    · cases hstep
      exact hinv.set_call fun _ _ _ h => by cases h
  | hasRow row =>
    cases hstep
    exact hinv.set_call fun _ _ _ h => by cases h
  | hasEvents row events =>
    rw [Finisher.step] at hstep
    split at hstep
    case h_1 path s₁ hput =>
      cases hstep
      obtain ⟨hrows, hcalls⟩ := hapart row events rfl
      have hwritten := hinv.write hput hrows hcalls
      obtain ⟨hpath, b, rfl, hfiles⟩ := Store.putBlob_eq_ok hput
      -- the call itself is now between its write and its commit
      refine hwritten.set_call fun row' events' path' h => ?_
      cases h
      exact ⟨hpath, snapshotDoc row events, by simp [Dict.get?_set], by rw [hfiles, if_pos rfl]⟩
    case h_2 e s₁ hput =>
      cases hstep
      obtain ⟨-, b, rfl, hfiles⟩ := Store.putBlob_eq_error hput
      have hkept : Inv calls written { s with blobs := b } :=
        hinv.of_frame hfiles fun row hrow _ => hrow
      exact hkept.set_call fun _ _ _ h => by cases h
  | hasBlob row events path =>
    cases hstep
    have hhas : Has written s recordingId path :=
      hinv.writing recordingId row events path (List.mem_of_getElem? hcall)
    exact (hinv.complete hhas events).set_call fun _ _ _ h => by cases h
  | returned recording => cases hstep
  | raised e => cases hstep

/-- A turn that overwrites nothing keeps the invariant. -/
theorem inv_step {a a' : Archive} {turn : ArchiveTurn} (hinv : Inv a.calls a.written a.store)
    (hapart : a.overwrites turn = false) (hstep : a.step order turn = some a') :
    Inv a'.calls a'.written a'.store := by
  cases turn with
  | service call =>
    cases hstep
    exact ((safe_serviceCall call).run hinv).1
  | finish recordingId =>
    cases hstep
    refine ⟨hinv.completed, fun recordingId' row events path hmem => ?_⟩
    rcases List.mem_append.mp hmem with hmem | hmem
    · exact hinv.writing recordingId' row events path hmem
    · -- the new call has written nothing
      cases List.mem_singleton.mp hmem
  | finisher i =>
    obtain ⟨⟨recordingId, f⟩, hcall, hstep⟩ := Option.bind_eq_some_iff.mp hstep
    obtain ⟨⟨f', s'⟩, hf, rfl⟩ := Option.map_eq_some_iff.mp hstep
    refine hinv.step_finisher hcall (fun row events hevents => ?_) hf
    subst hevents
    rw [overwrites, hcall, Bool.or_eq_false_iff, List.any_eq_false, List.any_eq_false] at hapart
    refine ⟨fun row' hrow' hstatus => ?_, fun call hmem hwrote => ?_⟩
    · simpa [hstatus] using hapart.1 row' hrow'
    · simpa [hwrote] using hapart.2 call hmem
  | crash i e =>
    obtain ⟨call, hcall, rfl⟩ := Option.map_eq_some_iff.mp hstep
    exact hinv.set_call fun _ _ _ h => by cases h

/-! ### Runs -/

/-- **Each recording keeps its own snapshot** in every run in which no snapshot is written to a
file that another recording is using. -/
theorem ownSnapshots_of_apart {a a' : Archive} {turns : List ArchiveTurn} (hstart : a.Starting)
    (hapart : Machine.Along (step order) (fun a turn => a.overwrites turn = false) a turns)
    (hrun : Machine.run (step order) a turns = some a') : a'.OwnSnapshots := by
  let inv (a : Archive) : Prop := Inv a.calls a.written a.store
  have hinit : inv a := by
    refine ⟨fun row hrow hstatus => absurd hstatus (hstart.recordings row hrow), ?_⟩
    rw [hstart.calls]
    exact fun _ _ _ _ hmem => nomatch hmem
  have hinv : inv a' :=
    Machine.invariant (fun _ _ _ h hok hs => inv_step h hok hs) hinit hapart hrun
  intro row hrow hstatus
  obtain ⟨path, hlocator, -, document, hwritten, hget⟩ := hinv.completed row hrow hstatus
  exact ⟨path, document, hlocator, hwritten, hget⟩

/-- No call has been made on an empty store. -/
def empty : Archive := ⟨.empty, [], []⟩

theorem starting_empty : empty.Starting := ⟨fun _ h => (nomatch h), rfl⟩

/-- Two recordings of the given ids are opened and finished, one after the other. -/
def bothFinished (recordingId recordingId' : String) : List ArchiveTurn :=
  [.service (.startRecording { recordingId := some recordingId } "a1"),
    .service (.startRecording { recordingId := some recordingId' } "a2"),
    .finish recordingId, .finisher 0, .finisher 0, .finisher 0, .finisher 0,
    .finish recordingId', .finisher 1, .finisher 1, .finisher 1, .finisher 1]

/-- Two recordings with files of their own. -/
theorem ownSnapshots_bothFinished :
    ∃ a, Machine.run (step .bySequence) empty (bothFinished "rec_1" "rec_2") = some a ∧
      a.OwnSnapshots := by
  obtain ⟨a, hrun⟩ := Option.isSome_iff_exists.mp
    (by decide : (Machine.run (step .bySequence) empty (bothFinished "rec_1" "rec_2")).isSome)
  exact ⟨a, hrun, ownSnapshots_of_apart starting_empty (by decide) hrun⟩

/-- The recording that a snapshot is of. -/
def snapshotOf : Value → Option String
  | .dict (("recording_id", .str recordingId) :: _) => some recordingId
  | _ => none

/-- What is known of a recording and its snapshot: the status, the id in the snapshot that was
written, and the id in the snapshot at the locator. -/
def summary (a : Archive) (recordingId : String) :
    Option RecordingStatus × Option String × Option String :=
  let row := a.store.recordings.find? recordingId
  (row.map RecordingRow.status, (a.written.get? recordingId).bind snapshotOf,
    ((row.bind RecordingRow.blobLocator).bind a.store.blobs.file?).bind snapshotOf)

/-- The snapshot of `rec_1/` goes to the file of `rec_1`. -/
theorem not_ownSnapshots_trailingSlash :
    ∃ a, Machine.run (step .bySequence) empty (bothFinished "rec_1" "rec_1/") = some a ∧
      ¬a.OwnSnapshots := by
  have hrun : (Machine.run (step .bySequence) empty (bothFinished "rec_1" "rec_1/")).map
      (fun a => a.summary "rec_1") = some (some .completed, some "rec_1", some "rec_1/") := by
    decide
  obtain ⟨a, ha, hsummary⟩ := Option.map_eq_some_iff.mp hrun
  refine ⟨a, ha, fun hown => ?_⟩
  obtain ⟨hstatus, hwrote⟩ := Prod.mk.inj hsummary
  obtain ⟨hwrote, hlocated⟩ := Prod.mk.inj hwrote
  obtain ⟨row, hrow, hcompleted⟩ := Option.map_eq_some_iff.mp hstatus
  obtain ⟨hmem, hid⟩ := Table.find?_eq_some_iff.mp hrow
  obtain ⟨path, document, hlocator, hwritten, hget⟩ := hown row hmem hcompleted
  -- one document would be the snapshot of both
  rw [hid] at hwritten
  simp only [hwritten, Option.bind_some] at hwrote
  simp only [hrow, hlocator, hget, Option.bind_some, hwrote] at hlocated
  exact absurd hlocated (by decide)

end Archive

end InfraReplay
