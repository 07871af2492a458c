import InfraReplay.Recording.ImportEffects
import InfraReplay.Replay.Runner

/-!
# How a replay that dies leaves its recording

`run_replay` opens the replay recording before the first request is sent, and several steps after
that can raise. Only a `ReplayError` of `replay_recording` is caught and recorded; whatever else is
raised before `finish_recording` has committed leaves the recording in status RECORDING.
`closesReplay_iff` says when a replay that ends by an exception has closed its recording.
-/

namespace InfraReplay

open Python

variable {refuses : ℕ → Store → Store → Option Error} {s s' s₁ : Store} {order : RowOrder}

/-! ### The parts of a replay -/

/-- Store and correlate the replayed events. -/
def storeReplayed (order : RowOrder) (replayId : String) (replayed : List Event) :
    Prog Store Error Recording := do
  let _ ← appendEvents replayId replayed
  finishRecording order replayId

/-- Link, compare and save, once the replayed events are stored. -/
def compareReplayed (cfg : Config) (options : ReplayOptions) (recordingId replayId : String)
    (source run : Recording) : Prog Store Error (ReplayRun × Dict String ℕ) := do
  let links := linkStreams source.events run.events
  linkReplayEvents replayId links
  let results := compareRun (comparators cfg) source run.events links
  saveComparison replayId results
  return (
    { replayRecordingId := replayId
      sourceRecordingId := recordingId
      target := options.target
      eventLinks := links },
    summarize results)

/-- What is sent and comes back. -/
def replayedEvents (env : ReplayEnv) (options : ReplayOptions) (source : Recording) :
    Except Error (List Event) :=
  replayRecording env.supply (env.canonical (newId "rpl" env.hex))
    (env.send (newId "rpl" env.hex)) options source

/-- `run_replay`, from the point where the replay recording is open. -/
def replayOpened (cfg : Config) (order : RowOrder) (env : ReplayEnv) (options : ReplayOptions)
    (recordingId : String) (source : Recording) : Prog Store Error (ReplayRun × Dict String ℕ) := do
  let replayed ← tryCatch (fromResult (replayedEvents env options source))
    (failReplay (newId "rpl" env.hex))
  let run ← storeReplayed order (newId "rpl" env.hex) replayed
  compareReplayed cfg options recordingId (newId "rpl" env.hex) source run

theorem replaySource_eq (cfg : Config) (order : RowOrder) (env : ReplayEnv)
    (options : ReplayOptions) (recordingId : String) (source : Recording) :
    replaySource cfg order env options recordingId source =
      startRecording (replayRow source recordingId options.target (newId "rpl" env.hex)) env.hex >>=
        fun _ => replayOpened cfg order env options recordingId source := by
  unfold replaySource replayOpened storeReplayed compareReplayed
  simp only [bind_assoc]
  rfl

/-- The replay recording is opened under the id that was made up for it. -/
theorem chosenId_replayRow (source : Recording) (recordingId target hex : String) :
    (replayRow source recordingId target (newId "rpl" hex)).chosenId hex = newId "rpl" hex := by
  unfold NewRecording.chosenId replayRow
  rw [orElse, if_neg (by simp [newId_ne])]
  rfl

/-! ### When the parts go through -/

/-- `run_replay` opens the replay recording: the target is not refused, the source is there, and
neither reading it nor inserting the row fails. -/
structure OpensReplay (refuses : ℕ → Store → Store → Option Error) (order : RowOrder)
    (env : ReplayEnv) (options : ReplayOptions) (recordingId : String) (n : ℕ) (s : Store)
    (source : Recording) (s₁ : Store) : Prop where
  safe : ensureSafe options.target options.safety = .ok ()
  read : refuses n s s = none
  readEvents : refuses (n + 1) s s = none
  found : ∃ row, s.recordings.find? recordingId = some row ∧
    source = rowToRecording row (s.eventsFor order recordingId)
  row : s.addRecording
    ((replayRow source recordingId options.target (newId "rpl" env.hex)).row env.hex) =
      .ok ((), s₁)
  commit : refuses (n + 2) s s₁ = none

/-- What has to go through once the replay recording is open. Either the events come back, their
rows can be inserted, the snapshot can be written, and no step of the insert and of
`finish_recording` fails; or a `ReplayError` comes back and the commit of `fail_recording` does not
fail. -/
def ClosesReplay (refuses : ℕ → Store → Store → Option Error) (order : RowOrder) (env : ReplayEnv)
    (options : ReplayOptions) (n : ℕ) (source : Recording) (s₁ : Store) : Prop :=
  match replayedEvents env options source with
  | .ok replayed =>
    ((s₁.events.rows ++ redactedRows replayed []).map EventRow.eventId).Nodup ∧
      s₁.blobs.takesKey (snapshotKey (newId "rpl" env.hex)) = true ∧
      (storeReplayed order (newId "rpl" env.hex) replayed).Unrefused refuses n s₁
  | .error (.replayError message) =>
    (failRecording (newId "rpl" env.hex) message).Unrefused refuses n s₁
  | .error _ => False

theorem uncaught_storeReplayed (order : RowOrder) (replayId : String) (replayed : List Event) :
    (storeReplayed order replayId replayed).Uncaught :=
  (uncaught_appendEvents _ _ _).bind fun _ => uncaught_finishRecording order replayId

variable (refuses) in
/-- Storing goes through and completes the recording, or it raises and the tables of recordings
stay as they are. -/
theorem runUnder_storeReplayed_cases (order : RowOrder) (replayId : String)
    (replayed : List Event) (n : ℕ) (s : Store) :
    (∃ run n' s', (storeReplayed order replayId replayed).runUnder refuses n s =
        (.ok run, n', s') ∧
      ((s.events.rows ++ redactedRows replayed []).map EventRow.eventId).Nodup ∧
      s.blobs.takesKey (snapshotKey replayId) = true ∧
      (s'.recordings.find? replayId).map RecordingRow.status = some .completed) ∨
    ∃ e n' s', (storeReplayed order replayId replayed).runUnder refuses n s =
        (.error e, n', s') ∧ s'.recordings = s.recordings := by
  unfold storeReplayed
  rcases runUnder_appendEvents_cases refuses replayId replayed [] n s with
    ⟨n₁, s₁, hadd, -, happend⟩ | ⟨e, n₁, happend⟩
  · rw [Prog.runUnder_bind_ok happend]
    rcases runUnder_finishRecording_cases refuses order replayId n₁ s₁ with
      ⟨row, path, n₂, n₃, s₂, hrow, hpath, htakes, -, hfinish⟩ |
        ⟨e, n₂, s₂, hfinish, hrecordings, -⟩
    · obtain rfl : row.recordingId = replayId := (Table.find?_eq_some_iff.mp hrow).2
      rw [(Store.addEvents_eq_ok hadd).2.2.2] at htakes
      -- it returned, so the rows were taken, the root took the snapshot and the row is completed
      refine .inl ⟨_, _, _, hfinish, Store.nodup_of_addEvents hadd,
        BlobRoot.takesKey_iff.mpr ⟨path, hpath, htakes⟩, ?_⟩
      unfold Store.finished
      rw [Store.find?_complete]
      show ((s₁.recordings.find? row.recordingId).map _).map _ = _
      rw [hrow, Option.map_some, if_pos rfl]
      rfl
    · exact .inr ⟨e, n₂, s₂, hfinish, by rw [hrecordings, (Store.addEvents_eq_ok hadd).2.1]⟩
  · exact .inr ⟨e, n₁, s, Prog.runUnder_bind_error happend, rfl⟩

/-- When the rows can be inserted, the snapshot can be written and no step fails, storing goes
through. -/
theorem runUnder_storeReplayed {replayId : String} {replayed : List Event} {n : ℕ}
    (hrow : (s.recordings.find? replayId).isSome)
    (hfile : s.blobs.takesKey (snapshotKey replayId) = true)
    (hnd : ((s.events.rows ++ redactedRows replayed []).map EventRow.eventId).Nodup)
    (hunrefused : (storeReplayed order replayId replayed).Unrefused refuses n s) :
    ∃ run n' s', (storeReplayed order replayId replayed).runUnder refuses n s =
      (.ok run, n', s') := by
  obtain ⟨n', hrun⟩ := Prog.runUnder_eq_run hunrefused
  obtain ⟨row, hrow⟩ := Option.isSome_iff_exists.mp hrow
  obtain ⟨path, hpath, htakes⟩ := BlobRoot.takesKey_iff.mp hfile
  obtain ⟨s₁, hadd⟩ := Store.exists_addEvents hnd
  have happend : ((appendEvents replayId replayed).run s).1 = .ok (replayed.map redact) ∧
      ((appendEvents replayId replayed).run s).2.recordings = s.recordings ∧
      ((appendEvents replayId replayed).run s).2.blobs = s.blobs := by
    rw [run_appendEvents]
    split_ifs with hnil
    · -- nothing was replayed, and nothing is inserted
      rw [hnil]
      exact ⟨rfl, rfl, rfl⟩
    · rw [hadd]
      obtain ⟨-, hrecordings, -, hblobs⟩ := Store.addEvents_eq_ok hadd
      exact ⟨rfl, hrecordings, hblobs⟩
  have hrow' : ((appendEvents replayId replayed).run s).2.recordings.find? replayId = some row := by
    rw [happend.2.1, hrow]
  have htakes' : ((appendEvents replayId replayed).run s).2.blobs.takes path = true := by
    rw [happend.2.2, htakes]
  have hstored : (storeReplayed order replayId replayed).run s =
      (finishRecording order replayId).run ((appendEvents replayId replayed).run s).2 :=
    Prog.run_bind_ok (Prod.ext happend.1 rfl)
  rw [hstored, run_finishRecording hrow' hpath htakes'] at hrun
  exact ⟨_, _, _, hrun⟩

/-- What follows the commit of the recording leaves the recordings alone. -/
theorem recordings_compareReplayed (cfg : Config) (options : ReplayOptions)
    (recordingId replayId : String) (source run : Recording) (n : ℕ) (s : Store) :
    ((compareReplayed cfg options recordingId replayId source run).runUnder
      refuses n s).2.2.recordings = s.recordings := by
  have hsafe : (compareReplayed cfg options recordingId replayId source run).Safe
      (fun s' => s'.recordings = s.recordings) fun _ => True := by
    unfold compareReplayed linkReplayEvents saveComparison
    refine Prog.Safe.tx_bind fun s' _ s₁ hs' hlink => ⟨?_, ?_⟩
    · cases hlink
      rw [(Store.linkEvents_frame _ _).1, hs']
    · refine Prog.Safe.tx_bind fun s₁ _ s₂ hs₁ hsave => ?_
      cases hsave
      exact ⟨hs₁, trivial⟩
  exact hsafe.runUnder rfl

/-! ### When a replay closes its recording -/

section Replay

variable {cfg : Config} {env : ReplayEnv} {options : ReplayOptions} {recordingId : String}
  {source : Recording} {n n' : ℕ}

/-- A replay that opens its recording goes on from there. -/
theorem OpensReplay.runUnder_runReplay (cfg : Config)
    (h : OpensReplay refuses order env options recordingId n s source s₁) :
    (runReplay cfg order env options recordingId).runUnder refuses n s =
      (replayOpened cfg order env options recordingId source).runUnder refuses (n + 3) s₁ := by
  obtain ⟨row, hrow, rfl⟩ := h.found
  unfold runReplay
  rw [h.safe]
  show (getRecording order recordingId >>= _).runUnder refuses n s = _
  -- the source is read by two queries
  have hget : (getRecording order recordingId).runUnder refuses n s =
      (.ok (some (rowToRecording row (s.eventsFor order recordingId))), n + 1 + 1, s) := by
    unfold getRecording
    rw [Prog.runUnder_bind_ok (Prog.runUnder_read h.read _), hrow]
    simp only
    rw [Prog.runUnder_bind_ok (Prog.runUnder_read h.readEvents _)]
    rfl
  rw [Prog.runUnder_bind_ok hget]
  simp only
  rw [replaySource_eq, startRecording, bind_assoc,
    Prog.runUnder_bind_ok (Prog.runUnder_tx_ok h.row h.commit)]
  rfl

/-- A replay that does not open its recording raises and changes nothing. -/
theorem runUnder_runReplay_of_not_opens (cfg : Config)
    (h : ∀ source s₁, ¬OpensReplay refuses order env options recordingId n s source s₁) :
    ∃ e n', (runReplay cfg order env options recordingId).runUnder refuses n s =
      (.error e, n', s) := by
  unfold runReplay
  cases hsafe : ensureSafe options.target options.safety with
  | error e => exact ⟨e, n, rfl⟩
  | ok u =>
    show ∃ e n', (getRecording order recordingId >>= _).runUnder refuses n s = _
    unfold getRecording
    rw [bind_assoc]
    -- the row is read
    rcases Prog.runUnder_read_cases refuses
      (fun s : Store => s.recordings.find? recordingId) n s with ⟨hread, hrun⟩ | ⟨e, hrun⟩
    · rw [Prog.runUnder_bind_ok hrun]
      cases hrow : s.recordings.find? recordingId with
      | none => exact ⟨_, _, rfl⟩
      | some row =>
        simp only
        rw [bind_assoc]
        -- the events are read
        rcases Prog.runUnder_read_cases refuses
          (fun s : Store => s.eventsFor order recordingId) (n + 1) s with
          ⟨hreadEvents, hrun⟩ | ⟨e, hrun⟩
        · rw [Prog.runUnder_bind_ok hrun]
          show ∃ e n', (replaySource cfg order env options recordingId
            (rowToRecording row (s.eventsFor order recordingId))).runUnder refuses (n + 1 + 1) s = _
          -- the row of the replay recording is inserted
          rw [replaySource_eq]
          rcases runUnder_startRecording_cases refuses
            (replayRow (rowToRecording row (s.eventsFor order recordingId)) recordingId
              options.target (newId "rpl" env.hex)) env.hex (n + 1 + 1) s with
            ⟨s₁, hadd, hcommit, -⟩ | ⟨e, hrun⟩
          · exact absurd ⟨hsafe, hread, hreadEvents, ⟨row, hrow, rfl⟩, hadd, hcommit⟩ (h _ _)
          · exact ⟨e, _, Prog.runUnder_bind_error hrun⟩
        · exact ⟨e, _, Prog.runUnder_bind_error hrun⟩
    · exact ⟨e, _, Prog.runUnder_bind_error hrun⟩

/-- The replay recording is open once its row is in. -/
theorem OpensReplay.isOpen (h : OpensReplay refuses order env options recordingId n s source s₁) :
    s₁.Open (newId "rpl" env.hex) := by
  refine ⟨(replayRow source recordingId options.target (newId "rpl" env.hex)).row env.hex,
    Table.find?_eq_some_iff.mpr ⟨?_, ?_⟩, rfl⟩
  · rw [(Store.addRecording_eq_ok h.row).1]
    exact List.mem_append_right _ (List.mem_singleton_self _)
  · exact chosenId_replayRow source recordingId options.target env.hex

/-- What is left when the replayed events come back. -/
theorem runUnder_replayOpened_ok {replayed : List Event}
    (h : replayedEvents env options source = .ok replayed) (n : ℕ) (s : Store) :
    (replayOpened cfg order env options recordingId source).runUnder refuses n s =
      (storeReplayed order (newId "rpl" env.hex) replayed >>=
        compareReplayed cfg options recordingId (newId "rpl" env.hex) source).runUnder
          refuses n s := by
  unfold replayOpened
  rw [h]
  rfl

/-- What is left when sending raises. -/
theorem runUnder_replayOpened_error {e : Error}
    (h : replayedEvents env options source = .error e) (n : ℕ) (s : Store) :
    (replayOpened cfg order env options recordingId source).runUnder refuses n s =
      ((failReplay (newId "rpl" env.hex) e : Prog Store Error (List Event)) >>= fun replayed =>
        storeReplayed order (newId "rpl" env.hex) replayed >>=
          compareReplayed cfg options recordingId (newId "rpl" env.hex) source).runUnder
            refuses n s := by
  unfold replayOpened
  rw [h]
  rfl

variable (cfg recordingId) in
/-- A replay that closes its recording has completed or failed it. -/
theorem ClosesReplay.not_isOpen (hopen : s.Open (newId "rpl" env.hex))
    (h : ClosesReplay refuses order env options n source s) :
    ¬((replayOpened cfg order env options recordingId source).runUnder refuses n s).2.2.Open
      (newId "rpl" env.hex) := by
  obtain ⟨row, hrow, -⟩ := hopen
  unfold ClosesReplay at h
  split at h
  case h_1 replayed hreplayed =>
    rw [runUnder_replayOpened_ok hreplayed]
    obtain ⟨run, n₁, s₁, hstored⟩ := runUnder_storeReplayed (by rw [hrow]; rfl) h.2.1 h.1 h.2.2
    have hcompleted : (s₁.recordings.find? (newId "rpl" env.hex)).map RecordingRow.status =
        some .completed := by
      rcases runUnder_storeReplayed_cases refuses order (newId "rpl" env.hex) replayed
        n s with ⟨_, _, _, hstored', -, -, hstatus⟩ | ⟨_, _, _, hstored', -⟩
      · rw [hstored] at hstored'
        cases hstored'
        exact hstatus
      · rw [hstored] at hstored'
        cases congrArg Prod.fst hstored'
    rw [Prog.runUnder_bind_ok hstored]
    -- what follows cannot open the recording again
    rintro ⟨row', hrow', hstatus⟩
    rw [recordings_compareReplayed] at hrow'
    rw [hrow', Option.map_some, hstatus] at hcompleted
    cases hcompleted
  case h_2 message hreplayed =>
    rw [runUnder_replayOpened_error hreplayed]
    obtain ⟨n₁, hfail⟩ := Prog.runUnder_eq_run h
    have hraise : (failReplay (newId "rpl" env.hex) (.replayError message) :
        Prog Store Error (List Event)).runUnder refuses n s =
          (.error (.replayError message), n₁, s.setRecording (newId "rpl" env.hex)
            (RecordingRow.failed message) fun _ => rfl) := by
      unfold failReplay
      rw [Prog.runUnder_bind_ok hfail]
      rfl
    rw [Prog.runUnder_bind_error hraise]
    rintro ⟨row', hrow', hstatus⟩
    have hid : row.recordingId = newId "rpl" env.hex := (Table.find?_eq_some_iff.mp hrow).2
    have hfound := Store.find?_setRecording (RecordingRow.failed message) (fun _ => rfl)
      (newId "rpl" env.hex) (newId "rpl" env.hex) s
    rw [hrow, Option.map_some, if_pos hid] at hfound
    obtain rfl := Option.some.inj (hfound.symm.trans hrow')
    cases hstatus
  case h_3 => exact h.elim

variable (cfg recordingId) in
/-- A replay that does not close its recording raises, and the recording stays open. -/
theorem isOpen_of_not_closesReplay (hopen : s.Open (newId "rpl" env.hex))
    (h : ¬ClosesReplay refuses order env options n source s) :
    ∃ e n' s', (replayOpened cfg order env options recordingId source).runUnder refuses n s =
      (.error e, n', s') ∧ s'.Open (newId "rpl" env.hex) := by
  cases hreplayed : replayedEvents env options source with
  | ok replayed =>
    rw [ClosesReplay, hreplayed] at h
    rw [runUnder_replayOpened_ok hreplayed]
    rcases runUnder_storeReplayed_cases refuses order (newId "rpl" env.hex) replayed
      n s with ⟨run, n₁, s₁, hstored, hnd, hfile, -⟩ | ⟨e, n₁, s₁, hstored, hrecordings⟩
    · -- nothing has failed
      exact absurd ⟨hnd, hfile, (uncaught_storeReplayed order _ replayed).unrefused hstored⟩ h
    · refine ⟨e, n₁, s₁, Prog.runUnder_bind_error hstored, ?_⟩
      unfold Store.Open
      rw [hrecordings]
      exact hopen
  | error e =>
    rw [ClosesReplay, hreplayed] at h
    rw [runUnder_replayOpened_error hreplayed]
    cases e with
    | replayError message =>
      have huncaught : (failRecording (newId "rpl" env.hex) message).Uncaught :=
        Prog.uncaught_tx _
      rcases Prog.runUnder_tx_cases refuses
        (fun s : Store => Except.ok ((), s.setRecording (newId "rpl" env.hex)
          (RecordingRow.failed message) fun _ => rfl)) n s with ⟨_, s₁, -, -, hrun⟩ | ⟨e, hrun⟩
      · exact absurd (huncaught.unrefused hrun) h
      · have hraise : (failReplay (newId "rpl" env.hex) (.replayError message) :
            Prog Store Error (List Event)).runUnder refuses n s = (.error e, n + 1, s) :=
          Prog.runUnder_bind_error hrun
        exact ⟨e, n + 1, s, Prog.runUnder_bind_error hraise, hopen⟩
    -- any other exception goes through
    | _ => exact ⟨_, n, s, rfl, hopen⟩

/-- **A replay that dies.** When `run_replay` ends by an exception it has closed the recording it
opened, exactly when what has to go through after the opening goes through. -/
theorem closesReplay_iff (cfg : Config) (order : RowOrder) (recordingId : String) (n : ℕ)
    (hfresh : newId "rpl" env.hex ∉ s.recordings.rows.map RecordingRow.recordingId) :
    (∀ e n' s', (runReplay cfg order env options recordingId).runUnder refuses n s =
        (.error e, n', s') → ¬s'.Open (newId "rpl" env.hex)) ↔
      ∀ source s₁, OpensReplay refuses order env options recordingId n s source s₁ →
        ClosesReplay refuses order env options (n + 3) source s₁ := by
  constructor
  · intro hclosed source s₁ hopens
    by_contra hnot
    obtain ⟨e, n', s', hrun, hopen⟩ := isOpen_of_not_closesReplay cfg recordingId
      hopens.isOpen hnot
    exact hclosed e n' s' (by rw [hopens.runUnder_runReplay, hrun]) hopen
  · intro hcloses e n' s' hrun
    by_cases hopens : ∃ source s₁, OpensReplay refuses order env options recordingId n s source s₁
    · obtain ⟨source, s₁, hopens⟩ := hopens
      have hclosed := (hcloses source s₁ hopens).not_isOpen cfg recordingId hopens.isOpen
      rw [hopens.runUnder_runReplay] at hrun
      rwa [hrun] at hclosed
    · -- no row was inserted, and the id was not there before
      obtain ⟨e', n₁, hraise⟩ := runUnder_runReplay_of_not_opens cfg
        fun source s₁ h => hopens ⟨source, s₁, h⟩
      rw [hraise] at hrun
      cases hrun
      rintro ⟨row, hrow, -⟩
      obtain ⟨hmem, hid⟩ := Table.find?_eq_some_iff.mp hrow
      exact hfresh (List.mem_map.mpr ⟨row, hmem, hid⟩)

end Replay

/-- A mock target whose canonical stream is one request. -/
def oneStepEnv : ReplayEnv where
  hex := "1"
  supply := ⟨fun _ => "", fun _ => "", fun _ => 0⟩
  canonical recordingId :=
    [{ Event.brief .httpRequest "evt_1" "corr_1" 0 with recordingId := recordingId }]
  send _ _ := .ok []

/-- A recording without events. -/
def emptyStore : Store :=
  .withRecording { recordingId := "rec_1", kind := .capture, status := .completed }

/-- A source without events is refused by a `ReplayError`, and its replay is failed. -/
theorem closesReplay_iff_empty :
    ∃ message n' s', (runReplay { ignoreFields := [] } .bySequence oneStepEnv { target := "mock" }
        "rec_1").runUnder (fun _ _ _ => none) 0 emptyStore =
          (.error (.replayError message), n', s') ∧ ¬s'.Open "rpl_1" := by
  have hclosed : ∀ e n' s', (runReplay { ignoreFields := [] } .bySequence oneStepEnv
      { target := "mock" } "rec_1").runUnder (fun _ _ _ => none) 0 emptyStore =
        (.error e, n', s') → ¬s'.Open (newId "rpl" oneStepEnv.hex) := by
    refine (closesReplay_iff _ _ _ 0 (by decide)).mpr fun source s₁ hopens => ?_
    obtain ⟨row, hrow, rfl⟩ := hopens.found
    obtain rfl := Option.some.inj hrow
    exact Prog.unrefused_never _ _ _
  exact ⟨_, _, _, rfl, hclosed _ _ _ rfl⟩

/-- A recording that is still open, with two events of one number. -/
def raggedStore : Store where
  recordings := ⟨[{ recordingId := "rec_1", kind := .capture, status := .recording }], by simp⟩
  events := ⟨[⟨.brief .httpRequest "evt_a" "corr_a" 0, none⟩,
    ⟨.brief .httpRequest "evt_b" "corr_b" 0, none⟩], by decide⟩
  comparisons := []
  blobs := .empty

/-- The mock target answers both with the same event, the second insert is refused, and the replay
recording stays open. -/
theorem not_closesReplay_ragged :
    ¬∀ (cfg : Config) (order : RowOrder) (env : ReplayEnv) (options : ReplayOptions)
      (recordingId : String) (refuses : ℕ → Store → Store → Option Error) (n n' : ℕ)
      (s s' : Store) (e : Error),
      newId "rpl" env.hex ∉ s.recordings.rows.map RecordingRow.recordingId →
      (runReplay cfg order env options recordingId).runUnder refuses n s = (.error e, n', s') →
        ¬s'.Open (newId "rpl" env.hex) := by
  intro h
  obtain ⟨n', s', hrun, hopen⟩ : ∃ n' s',
      (runReplay { ignoreFields := [] } .bySequence oneStepEnv { target := "mock" }
        "rec_1").runUnder (fun _ _ _ => none) 0 raggedStore = (.error .integrity, n', s') ∧
      s'.Open "rpl_1" := ⟨_, _, rfl, _, rfl, rfl⟩
  exact h _ _ _ _ _ _ _ _ _ _ _ (by decide) hrun hopen

end InfraReplay
