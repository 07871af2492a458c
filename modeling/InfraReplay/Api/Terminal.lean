import InfraReplay.Capture.Session
import InfraReplay.Common.Ownership
import InfraReplay.Recording.ImportEffects
import InfraReplay.Replay.Failure

/-!
# Terminal statuses are final

`finish_recording` and `fail_recording` set a status without looking at the one that is there. What
keeps COMPLETED and FAILED final is that every recording has one owner: the call that has opened
it, or `_SESSIONS` while a capture is live, and then the one `stop_session` that has taken the
session out. `Process` has the store and the sessions, and every call is a task on it, so that the
rules of `Ledger` can be followed through each of them (`owns_of_isCall`).

A call that finishes a recording is written as what comes before `finish_recording`, the finish,
and what comes after; `erases_captureRecording` and its siblings say that this is the call as it is
in the store's terms.
-/

namespace InfraReplay

open Python

/-! ### The process -/

/-- The store and the module state of the API process. -/
structure Process where
  store : Store
  /-- The keys of `_SESSIONS`. -/
  sessions : List String
  /-- The recordings that `finish_recording` has committed, in order. No code reads it. -/
  commits : List String

namespace Process

variable {α β : Type}

/-- A task that touches the store only. -/
def onStore (p : Prog Store Error α) : Prog Process Error α :=
  p.zoom Process.store fun process store => { process with store := store }

/-- Running on the store goes through sequencing. -/
theorem onStore_bind (p : Prog Store Error α) (f : α → Prog Store Error β) :
    onStore (p >>= f) = onStore p >>= fun a => onStore (f a) := Prog.zoom_bind p f

/-- It goes through exception handling as well. -/
theorem onStore_tryCatch (p : Prog Store Error α) (handler : Error → Prog Store Error α) :
    onStore (tryCatch p handler) = tryCatch (onStore p) fun e => onStore (handler e) :=
  Prog.zoom_tryCatch p handler

/-- `finish_recording`; its commit is noted. -/
def finishRecording (order : RowOrder) (recordingId : String) : Prog Process Error Recording := do
  match ← onStore (Prog.read fun s => s.recordings.find? recordingId) with
  | none => throw (.keyError recordingId)
  | some row =>
    let events ← onStore (Prog.read fun s => correlate (s.eventsFor order recordingId))
    let locator ← onStore
      (Prog.call (Store.putBlob (snapshotKey recordingId) (snapshotDoc row events)))
    Prog.tx fun process => .ok ((), { process with
      store := process.store.complete recordingId events locator
      commits := process.commits ++ [recordingId] })
    return rowToRecording { row with status := .completed } events

/-- `_SESSIONS[recording_id] = session`. -/
def register (recordingId : String) : Prog Process Error Unit :=
  Prog.tx fun process => .ok ((), { process with
    sessions := process.sessions.filter (· ≠ recordingId) ++ [recordingId] })

/-- `_SESSIONS.pop(recording_id, None)`: whether there was a session. -/
def popSession (recordingId : String) : Prog Process Error Bool :=
  Prog.tx fun process => .ok (decide (recordingId ∈ process.sessions), { process with
    sessions := process.sessions.filter (· ≠ recordingId) })

/-- A call that opens a recording, finishes it, and goes on. -/
def finishing (order : RowOrder) (before : Prog Store Error β) (recordingId : β → String)
    (after : β → Recording → Prog Store Error α) : Prog Process Error α := do
  let opened ← onStore before
  let recording ← finishRecording order (recordingId opened)
  onStore (after opened recording)

end Process

/-! ### The calls -/

/-- `capture_recording`, up to `finish_recording`. -/
def capturedRecording (project title pluginName hex : String) (plugin : String → PluginRun) :
    Prog Store Error String := do
  let recordingId ← startRecording
    { project := project, title := title, capturePlugin := pluginName } hex
  tryCatch
    (do
      pluginResult (plugin recordingId).started
      pump recordingId (plugin recordingId).events
      pluginResult (plugin recordingId).stopped)
    fun exc => do
      failRecording recordingId exc.text
      throw exc
  return recordingId

/-- `import_recording`, up to `finish_recording`. -/
def importAppended (models : Models) (hex recordingHex : String) (eventHexes : List String)
    (doc : Dict String Value) : Prog Store Error Recording := do
  let recording ← importOpened models hex recordingHex eventHexes doc
  let _ ← appendEvents recording.recordingId recording.events
  return recording

/-- `run_replay`, up to `finish_recording`. -/
def replayStored (order : RowOrder) (env : ReplayEnv) (options : ReplayOptions)
    (recordingId : String) : Prog Store Error Recording := do
  fromResult (ensureSafe options.target options.safety)
  match ← getRecording order recordingId with
  | none => throw (.replayError ("recording " ++ quoted recordingId ++ " not found"))
  | some source =>
    let _ ← startRecording
      (replayRow source recordingId options.target (newId "rpl" env.hex)) env.hex
    let replayed ← tryCatch (fromResult (replayedEvents env options source))
      (failReplay (newId "rpl" env.hex))
    let _ ← appendEvents (newId "rpl" env.hex) replayed
    return source

namespace Process

/-- `start_session`. -/
def startSession (pluginName project title hex : String) (upstream : Option String)
    (plugin : String → PluginRun) : Prog Process Error String := do
  let recordingId ← onStore
    (InfraReplay.startSession pluginName project title hex upstream plugin)
  register recordingId
  return recordingId

/-- `stop_session`, where `stopped` and `drained` are what the plugin and the awaited pump raise. -/
def stopSession (order : RowOrder) (recordingId : String) (stopped drained : Except Error Unit) :
    Prog Process Error Recording := do
  match ← popSession recordingId with
  | false => throw (.captureError ("no live capture session " ++ quoted recordingId))
  | true =>
    onStore (pluginResult stopped)
    onStore (pluginResult drained)
    finishRecording order recordingId

/-- `capture_recording`. -/
def captureRecording (order : RowOrder) (project title pluginName hex : String)
    (plugin : String → PluginRun) : Prog Process Error Recording :=
  finishing order (capturedRecording project title pluginName hex plugin) id
    fun _ recording => pure recording

/-- `import_recording`. -/
def importRecording (models : Models) (order : RowOrder) (hex recordingHex : String)
    (eventHexes : List String) (doc : Dict String Value) : Prog Process Error Recording :=
  finishing order (importAppended models hex recordingHex eventHexes doc) Recording.recordingId
    fun _ recording => pure recording

/-- `run_replay`. -/
def runReplay (cfg : Config) (order : RowOrder) (env : ReplayEnv) (options : ReplayOptions)
    (recordingId : String) : Prog Process Error (ReplayRun × Dict String ℕ) :=
  finishing order (replayStored order env options recordingId) (fun _ => newId "rpl" env.hex)
    fun source run => compareReplayed cfg options recordingId (newId "rpl" env.hex) source run

/-- A call to the API, or the pump that a session starts. -/
inductive Call : {α : Type} → Prog Process Error α → Prop
  | startSession (pluginName project title hex : String) (upstream : Option String)
      (plugin : String → PluginRun) :
      Call (startSession pluginName project title hex upstream plugin)
  | pump (recordingId : String) (events : List Event) : Call (onStore (pump recordingId events))
  | stopSession (order : RowOrder) (recordingId : String) (stopped drained : Except Error Unit) :
      Call (stopSession order recordingId stopped drained)
  | captureRecording (order : RowOrder) (project title pluginName hex : String)
      (plugin : String → PluginRun) :
      Call (captureRecording order project title pluginName hex plugin)
  | ingestEvents (recordingId : String) (events : List Event) :
      Call (onStore (ingestEvents recordingId events))
  | importRecording (models : Models) (order : RowOrder) (hex recordingHex : String)
      (eventHexes : List String) (doc : Dict String Value) :
      Call (importRecording models order hex recordingHex eventHexes doc)
  | runReplay (cfg : Config) (order : RowOrder) (env : ReplayEnv) (options : ReplayOptions)
      (recordingId : String) : Call (runReplay cfg order env options recordingId)

/-- A call whose value is dropped. -/
inductive IsCall : Prog Process Error Unit → Prop
  | intro {α : Type} {p : Prog Process Error α} (h : Call p) : IsCall p.discard

/-! ### The calls in the store's terms -/

section Erases

variable {α β : Type}

/-- Without the bookkeeping, a program on the store is that program. -/
theorem erases_onStore (p : Prog Store Error α) : (onStore p).Erases Process.store p :=
  Prog.Erases.zoom (fun _ _ => rfl) p

/-- Without the bookkeeping, finishing is `finish_recording`. -/
theorem erases_finishRecording (order : RowOrder) (recordingId : String) :
    (finishRecording order recordingId).Erases Process.store
      (InfraReplay.finishRecording order recordingId) := by
  refine (erases_onStore _).bind fun row => ?_
  cases row with
  | none => rfl
  | some row =>
    refine (erases_onStore _).bind fun events => (erases_onStore _).bind fun locator => ?_
    exact Prog.Erases.bind (Prog.Erases.tx fun _ => rfl) fun _ => rfl

/-- A finishing that is watched erases to the one that is not. -/
theorem erases_finishing (order : RowOrder) (before : Prog Store Error β)
    (recordingId : β → String) (after : β → Recording → Prog Store Error α) :
    (finishing order before recordingId after).Erases Process.store
      (before >>= fun opened => InfraReplay.finishRecording order (recordingId opened) >>=
        after opened) :=
  (erases_onStore before).bind fun _ =>
    (erases_finishRecording order _).bind fun _ => erases_onStore _

/-- One-shot captures, imports and replays do to the store what they do without a process. -/
theorem erases_captureRecording (order : RowOrder) (project title pluginName hex : String)
    (plugin : String → PluginRun) :
    (captureRecording order project title pluginName hex plugin).Erases Process.store
      (InfraReplay.captureRecording order project title pluginName hex plugin) := by
  have h := erases_finishing order (capturedRecording project title pluginName hex plugin) id
    fun _ recording => pure recording
  simp only [capturedRecording, bind_assoc, pure_bind, bind_pure, id_eq] at h
  exact h

/-- Without the bookkeeping, the import is `import_recording`. -/
theorem erases_importRecording (models : Models) (order : RowOrder) (hex recordingHex : String)
    (eventHexes : List String) (doc : Dict String Value) :
    (importRecording models order hex recordingHex eventHexes doc).Erases Process.store
      (InfraReplay.importRecording models order hex recordingHex eventHexes doc) := by
  have h := erases_finishing order (importAppended models hex recordingHex eventHexes doc)
    Recording.recordingId fun _ recording => pure recording
  simp only [importAppended, bind_assoc, pure_bind, bind_pure] at h
  rw [importRecording_eq_bind]
  exact h

/-- Without the bookkeeping, the replay is `run_replay`. -/
theorem erases_runReplay (cfg : Config) (order : RowOrder) (env : ReplayEnv)
    (options : ReplayOptions) (recordingId : String) :
    (runReplay cfg order env options recordingId).Erases Process.store
      (InfraReplay.runReplay cfg order env options recordingId) := by
  have h := erases_finishing order (replayStored order env options recordingId)
    (fun _ => newId "rpl" env.hex)
    fun source run => compareReplayed cfg options recordingId (newId "rpl" env.hex) source run
  -- the program of `run_replay`, cut where the finishing begins
  have heq : replayStored order env options recordingId >>= (fun source =>
      InfraReplay.finishRecording order (newId "rpl" env.hex) >>=
        compareReplayed cfg options recordingId (newId "rpl" env.hex) source) =
      InfraReplay.runReplay cfg order env options recordingId := by
    unfold replayStored InfraReplay.runReplay
    simp only [bind_assoc]
    refine congrArg (_ >>= ·) (funext fun _ => congrArg (_ >>= ·) (funext fun found => ?_))
    cases found with
    | none => rfl
    | some source =>
      simp only [replaySource_eq, replayOpened, storeReplayed, bind_assoc, pure_bind]
  rw [← heq]
  exact h

end Erases

end Process

/-! ### The ledger of recordings -/

/-- No recording comes or goes and no row changes. -/
def SameRecordings (s s' : Store) : Prop := s'.recordings = s.recordings

section Quiet

variable {order : RowOrder}

theorem SameRecordings.refl (s : Store) : SameRecordings s s := rfl

/-- Appending events touches no recording row. -/
theorem always_appendEvents (recordingId : String) (events : List Event)
    (links : Dict String String) :
    (appendEvents recordingId events links).Always SameRecordings := by
  unfold appendEvents
  split_ifs
  · trivial
  · refine (Prog.Always.tx SameRecordings.refl fun s u s' h => ?_).bind fun _ => trivial
    exact (Store.addEvents_eq_ok h).2.1

/-- What a plugin answers leaves the recordings. -/
theorem always_pluginResult (result : Except Error Unit) :
    (pluginResult result).Always SameRecordings := by
  cases result <;> trivial

/-- A pump touches no recording row. -/
theorem always_pump (recordingId : String) (events : List Event) :
    (pump recordingId events).Always SameRecordings := by
  induction events with
  | nil => trivial
  | cons event events ih =>
    exact (always_appendEvents recordingId [event] []).bind fun _ => ih

/-- Neither does an ingest call. -/
theorem always_ingestEvents (recordingId : String) (events : List Event) :
    (ingestEvents recordingId events).Always SameRecordings := by
  refine (Prog.Always.read SameRecordings.refl).bind fun status => ?_
  cases ingestRefusal recordingId status with
  | some e => trivial
  | none => exact (always_appendEvents recordingId _ []).bind fun _ => trivial

/-- Reading leaves them too. -/
theorem always_getRecording (recordingId : String) :
    (getRecording order recordingId).Always SameRecordings := by
  refine (Prog.Always.read SameRecordings.refl).bind fun row => ?_
  cases row with
  | none => trivial
  | some row => exact (Prog.Always.read SameRecordings.refl).bind fun _ => trivial

/-- Comparing touches no recording row. -/
theorem always_compareReplayed (cfg : Config) (options : ReplayOptions)
    (recordingId replayId : String) (source run : Recording) :
    (compareReplayed cfg options recordingId replayId source run).Always SameRecordings := by
  refine (Prog.Always.tx SameRecordings.refl fun s u s' h => ?_).bind fun _ =>
    (Prog.Always.tx SameRecordings.refl fun s u s' h => ?_).bind fun _ => trivial
  · cases h
    exact (Store.linkEvents_frame _ s).1
  · cases h
    rfl

end Quiet

namespace Process

/-- Recordings are things that their owner ends, and `_SESSIONS` is the shelf. Whether there is a
recording under the empty id never changes. -/
def ledger (b : Bool) : Ledger Process String RecordingStatus where
  status process id := (process.store.recordings.find? id).map RecordingRow.status
  final status := status ≠ .recording
  shelved process id := id ∈ process.sessions
  log := commits
  inv process := (process.store.recordings.find? "").isSome = b

@[simp]
theorem status_ledger (b : Bool) (process : Process) (recordingId : String) :
    (ledger b).status process recordingId =
      (process.store.recordings.find? recordingId).map RecordingRow.status := rfl

section Keeps

variable {b : Bool} {α β : Type} {T : Set String}
  {P : α → Set String → Prop} {E : Error → Set String → Prop} {process : Process}
  {recordingId : String}

/-- A task on the store that leaves the recordings alone changes nothing in the ledger. -/
theorem always_onStore {p : Prog Store Error α} (hp : p.Always SameRecordings) :
    (onStore p).Always (ledger b).Same := by
  refine hp.zoom fun process s hs => ?_
  unfold SameRecordings at hs
  exact ⟨by simp only [ledger, hs], rfl, rfl, fun hinv => by simpa only [ledger, hs] using hinv⟩

/-- A program that touches no recording row keeps the ledger. -/
theorem keeps_quiet {p : Prog Store Error α} (hp : p.Always SameRecordings)
    (hpost : ∀ a, P a T) (hraised : ∀ e, E e T) :
    (onStore p).Keeps (ledger b) P E T :=
  Prog.Keeps.of_same (always_onStore hp) hpost hraised

/-- A transaction on the store. -/
theorem keeps_onStore_tx {f : Store → Except Error (α × Store)}
    (h : ∀ process a s', (ledger b).Fit T process → f process.store = .ok (a, s') →
      ∃ T', (ledger b).Step T process T' { process with store := s' } ∧ P a T')
    (hraised : ∀ e, E e T) : (onStore (Prog.tx f)).Keeps (ledger b) P E T := by
  refine ⟨fun process hfit => ?_, hraised⟩
  cases hf : f process.store with
  | ok r =>
    obtain ⟨T', hstep, hpost⟩ := h process r.1 r.2 hfit hf
    refine ⟨T', ?_, ?_⟩
    · simpa only [hf] using hstep
    · simp only [Except.map, hf]
      exact hpost
  | error e =>
    -- rolled back
    refine ⟨T, ?_, ?_⟩
    · simp only [hf]
      exact (Ledger.Same.refl process).step hfit
    · simp only [Except.map, hf]
      exact hraised e

/-- The ledger has a recording as open when the store has. -/
theorem open_iff :
    (ledger b).Open process recordingId ↔ process.store.Open recordingId := by
  constructor
  · rintro ⟨status, hstatus, hopen⟩
    obtain ⟨row, hrow, rfl⟩ := Option.map_eq_some_iff.mp hstatus
    exact ⟨row, hrow, not_not.mp hopen⟩
  · rintro ⟨row, hrow, hstatus⟩
    exact ⟨row.status, by rw [status_ledger, hrow]; rfl, not_not.mpr hstatus⟩

/-- Who opens a recording owns it. -/
theorem step_addRecording {row : RecordingRow} {u : Unit} {s' : Store}
    (hfit : (ledger b).Fit ∅ process) (hne : row.recordingId ≠ "")
    (hstatus : row.status = .recording) (h : process.store.addRecording row = .ok (u, s')) :
    (ledger b).Step ∅ process {row.recordingId} { process with store := s' } := by
  have hnew := Store.not_mem_of_addRecording h
  have hnone : process.store.recordings.find? row.recordingId = none :=
    Table.find?_eq_none_iff.mpr hnew
  have hkept : ∀ id, id ≠ row.recordingId →
      s'.recordings.find? id = process.store.recordings.find? id :=
    fun id hid => Store.find?_addRecording_of_ne h hid
  have hopen : ∀ id, (ledger b).Open process id →
      (ledger b).Open { process with store := s' } id := by
    intro id hid
    rw [open_iff] at hid ⊢
    obtain ⟨row', hrow', hrecording⟩ := hid
    refine ⟨row', ?_, hrecording⟩
    rw [hkept id fun heq => by rw [heq, hnone] at hrow'; cases hrow']
    exact hrow'
  have hrow : s'.recordings.find? row.recordingId = some row := Store.find?_addRecording h
  refine ⟨fun id _ hid => ?_, fun id hid => ?_,
    fun id hid => ⟨hopen id (hfit.shelved id hid), .inl hid⟩, .inl rfl, ?_⟩
  · -- a recording that was there keeps its status
    have hid' : id ≠ row.recordingId := fun heq => hid (by simp only [ledger, heq, hnone]; rfl)
    simp only [ledger, hkept id hid']
  · -- a shelved recording is open, and this one did not exist
    obtain rfl : id = row.recordingId := hid
    refine ⟨open_iff.mpr ⟨row, hrow, hstatus⟩, fun hshelf => ?_, .inr (.inr ?_)⟩
    · obtain ⟨row', hrow', -⟩ := open_iff.mp (hfit.shelved _ hshelf)
      rw [hnone] at hrow'
      cases hrow'
    · simp only [ledger, hnone]
      rfl
  · -- a recording that is opened has an id
    simp only [ledger, hkept "" hne.symm]
    exact hfit.inv

/-- Who ends a recording owned it. -/
theorem step_end {process' : Process} (hfit : (ledger b).Fit {recordingId} process)
    (hsessions : process'.sessions = process.sessions)
    (hothers : ∀ id ≠ recordingId,
      process'.store.recordings.find? id = process.store.recordings.find? id)
    (hfinal : (ledger b).Final process' recordingId)
    (hlog : process'.commits = process.commits ∨
      process'.commits = process.commits ++ [recordingId]) :
    (ledger b).Step {recordingId} process ∅ process' where
  status id hid _ := by rw [status_ledger, status_ledger, hothers id hid]
  owned id hid := absurd hid (Set.notMem_empty id)
  shelved id hid := by
    have hshelf : (ledger b).shelved process id := by
      have hid : id ∈ process'.sessions := hid
      rwa [hsessions] at hid
    -- what is owned is not on the shelf
    have hne : id ≠ recordingId := by
      rintro rfl
      exact (hfit.owned id rfl).2 hshelf
    obtain ⟨row, hrow, hstatus⟩ := open_iff.mp (hfit.shelved id hshelf)
    exact ⟨open_iff.mpr ⟨row, by rw [hothers id hne, hrow], hstatus⟩, .inl hshelf⟩
  log := hlog.imp id fun h => ⟨recordingId, rfl, hfinal, h⟩
  inv := by
    have hinv : (process.store.recordings.find? "").isSome = b := hfit.inv
    show (process'.store.recordings.find? "").isSome = b
    by_cases hempty : "" = recordingId
    · -- there is a row before and after
      subst hempty
      obtain ⟨row, hrow, -⟩ := open_iff.mp (hfit.owned "" rfl).1
      obtain ⟨status, hstatus, -⟩ := hfinal
      obtain ⟨row', hrow', -⟩ := Option.map_eq_some_iff.mp hstatus
      rw [hrow] at hinv
      rw [hrow']
      exact hinv
    · rw [hothers "" hempty]
      exact hinv

/-- What comes after quiet steps starts with what was owned before them. -/
theorem keeps_quiet_bind {p : Prog Store Error α} {f : α → Prog Process Error β}
    {P : β → Set String → Prop} (hp : p.Always SameRecordings)
    (hf : ∀ a, (f a).Keeps (ledger b) P (fun _ _ => True) T) :
    (onStore p >>= f).Keeps (ledger b) P (fun _ _ => True) T := by
  refine Prog.Keeps.bind (P := fun _ T' => T' = T)
    (keeps_quiet hp (fun _ => rfl) fun _ => trivial) fun a T' hT' => ?_
  subst hT'
  exact hf a

/-- What is opened is held by who opened it. -/
theorem keeps_startRecording (new : NewRecording) (hex : String) :
    (onStore (startRecording new hex)).Keeps (ledger b)
      (fun id T' => id = new.chosenId hex ∧ T' = {id}) (fun _ _ => True) ∅ := by
  unfold startRecording
  rw [onStore_bind]
  refine Prog.Keeps.bind (keeps_onStore_tx (P := fun _ T' => T' = {new.chosenId hex})
    (fun process u s' hfit hadd => ⟨_, ?_, rfl⟩) fun _ => trivial) fun _ T' hT' => ⟨rfl, hT'⟩
  exact step_addRecording hfit (new.chosenId_ne hex) rfl hadd

/-- Failing a recording lets go of it. -/
theorem keeps_failRecording (recordingId reason : String) :
    (onStore (failRecording recordingId reason)).Keeps (ledger b)
      (fun _ T' => T' = ∅) (fun _ T' => T' = {recordingId}) {recordingId} := by
  refine keeps_onStore_tx (fun process u s' hfit hfail => ⟨∅, ?_, rfl⟩) fun _ => rfl
  cases hfail
  refine step_end hfit rfl (fun id hid => Store.find?_setRecording_of_ne
    (RecordingRow.failed reason) (fun _ => rfl) hid process.store) ?_ (.inl rfl)
  obtain ⟨row, hrow, -⟩ := open_iff.mp (hfit.owned recordingId rfl).1
  have hid : row.recordingId = recordingId := (Table.find?_eq_some_iff.mp hrow).2
  have hfind := Store.find?_setRecording (RecordingRow.failed reason) (fun _ => rfl) recordingId
    recordingId process.store
  rw [hrow, Option.map_some, if_pos hid] at hfind
  exact ⟨.failed, congrArg (Option.map RecordingRow.status) hfind, by simp [ledger]⟩

/-- The owner of a recording may finish it; it raises under the empty id when nobody owns that. -/
theorem keeps_finishRecording (order : RowOrder)
    (hT : T = {recordingId} ∨ recordingId = "" ∧ b = false) :
    (finishRecording order recordingId).Keeps (ledger b) (fun _ _ => True) (fun _ _ => True) T := by
  have hread : ∀ {γ : Type} (f : Store → γ), (Prog.read f : Prog Store Error γ).Always
      SameRecordings := fun f => Prog.Always.read SameRecordings.refl
  rcases hT with rfl | ⟨rfl, rfl⟩
  · refine keeps_quiet_bind (hread _) fun row => ?_
    cases row with
    | none => trivial
    | some row =>
      refine keeps_quiet_bind (hread _) fun events => keeps_quiet_bind ?_ fun locator => ?_
      · exact Prog.Always.call SameRecordings.refl fun s => Store.recordings_putBlob _ _ s
      · -- the commit
        refine Prog.Keeps.bind (P := fun _ _ => True) (Prog.Keeps.tx
          (fun process u process' hfit hcommit => ⟨∅, ?_, trivial⟩) fun _ => trivial)
          fun _ _ _ => trivial
        cases hcommit
        refine step_end hfit rfl (fun id hid => Store.find?_complete_of_ne hid events locator) ?_
          (.inr rfl)
        obtain ⟨row, hrow, -⟩ := open_iff.mp (hfit.owned recordingId rfl).1
        have hid : row.recordingId = recordingId := (Table.find?_eq_some_iff.mp hrow).2
        refine ⟨.completed, ?_, by simp [ledger]⟩
        rw [status_ledger, Store.find?_complete, hrow, Option.map_some, if_pos hid]
        rfl
  · -- there is no recording under the empty id
    refine Prog.Keeps.bind (P := fun row _ => row = none) ?_ fun row T' hrow => ?_
    · refine keeps_onStore_tx (fun process row s' hfit hread => ⟨T, ?_, ?_⟩) fun _ => trivial
      · cases hread
        exact (Ledger.Same.refl process).step hfit
      · cases hread
        exact Option.isNone_iff_eq_none.mp (by simpa [ledger] using hfit.inv)
    · rw [hrow]
      trivial

/-! ### The calls keep the rules -/

/-- A session that is registered goes on the shelf. -/
theorem keeps_register (recordingId : String) :
    (register recordingId).Keeps (ledger b) (fun _ _ => True) (fun _ _ => True) {recordingId} := by
  refine Prog.Keeps.tx (fun process u process' hfit h => ⟨∅, ?_, trivial⟩) fun _ => trivial
  cases h
  refine ⟨fun _ _ _ => rfl, fun id hid => absurd hid (Set.notMem_empty id), fun id hid => ?_,
    .inl rfl, hfit.inv⟩
  rcases List.mem_append.mp hid with hid | hid
  · exact ⟨hfit.shelved id (List.mem_filter.mp hid).1, .inl (List.mem_filter.mp hid).1⟩
  · obtain rfl := List.mem_singleton.mp hid
    exact ⟨(hfit.owned id rfl).1, .inr rfl⟩

/-- A session that is popped is owned by the call that popped it. -/
theorem keeps_popSession (recordingId : String) :
    (popSession recordingId).Keeps (ledger b)
      (fun found T' => found = true → T' = {recordingId}) (fun _ _ => True) ∅ := by
  refine Prog.Keeps.tx (fun process found process' hfit h => ?_) fun _ => trivial
  cases h
  by_cases hmem : recordingId ∈ process.sessions
  · refine ⟨{recordingId}, ⟨fun _ _ _ => rfl, fun id hid => ?_, fun id hid => ?_, .inl rfl,
      hfit.inv⟩, fun _ => rfl⟩
    · obtain rfl : id = recordingId := hid
      refine ⟨hfit.shelved id hmem, fun hshelf => ?_, .inr (.inl hmem)⟩
      exact absurd rfl (of_decide_eq_true (List.mem_filter.mp hshelf).2)
    · exact ⟨hfit.shelved id (List.mem_filter.mp hid).1, .inl (List.mem_filter.mp hid).1⟩
  · refine ⟨∅, ⟨fun _ _ _ => rfl, fun id hid => absurd hid (Set.notMem_empty id), fun id hid => ?_,
      .inl rfl, hfit.inv⟩, fun hfound => absurd (of_decide_eq_true hfound) hmem⟩
    exact ⟨hfit.shelved id (List.mem_filter.mp hid).1, .inl (List.mem_filter.mp hid).1⟩

/-- A step whose failure fails the recording leaves nothing to end. -/
theorem keeps_failing {p : Prog Store Error Unit} {handled : Error → Error}
    (hp : p.Always SameRecordings) :
    (onStore (tryCatch p fun exc => do
      failRecording recordingId exc.text
      throw (handled exc))).Keeps (ledger b)
        (fun _ T' => T' = {recordingId}) (fun _ _ => True) {recordingId} := by
  rw [onStore_tryCatch]
  refine Prog.Keeps.tryCatch (E := fun _ T' => T' = {recordingId})
    (keeps_quiet hp (fun _ => rfl) fun _ => rfl) fun exc T' hT' => ?_
  subst hT'
  rw [onStore_bind]
  refine Prog.Keeps.bind (P := fun _ T' => T' = ∅) ?_ fun _ _ _ => trivial
  exact (keeps_failRecording recordingId exc.text).mono (fun _ _ h => h) fun _ _ _ => trivial

/-- A session ends only what it has opened. -/
theorem keeps_startSession (pluginName project title hex : String) (upstream : Option String)
    (plugin : String → PluginRun) :
    (startSession pluginName project title hex upstream plugin).Keeps (ledger b)
      (fun _ _ => True) (fun _ _ => True) ∅ := by
  unfold startSession
  refine Prog.Keeps.bind (P := fun id T' => T' = {id}) ?_ fun id T' hT' => ?_
  · unfold InfraReplay.startSession
    rw [onStore_bind]
    refine (keeps_startRecording _ hex).bind fun id T' ⟨_, hT'⟩ => ?_
    subst hT'
    rw [onStore_bind]
    exact (keeps_failing (always_pluginResult _)).bind fun _ T' hT' => hT'
  · subst hT'
    exact (keeps_register id).bind fun _ _ _ => trivial

/-- A stop ends only what it has popped. -/
theorem keeps_stopSession (order : RowOrder) (recordingId : String)
    (stopped drained : Except Error Unit) :
    (stopSession order recordingId stopped drained).Keeps (ledger b)
      (fun _ _ => True) (fun _ _ => True) ∅ := by
  refine (keeps_popSession recordingId).bind fun found T' hfound => ?_
  cases found with
  | false => trivial
  | true =>
    obtain rfl := hfound rfl
    -- the plugin stops, the pump is awaited
    refine keeps_quiet_bind (always_pluginResult _) fun _ => ?_
    refine keeps_quiet_bind (always_pluginResult _) fun _ => ?_
    exact keeps_finishRecording order (.inl rfl)

/-- A call that owns what it finishes, or finishes nothing under the empty id. -/
theorem keeps_finishing (order : RowOrder) {before : Prog Store Error β} {id : β → String}
    {after : β → Recording → Prog Store Error α}
    (hbefore : (onStore before).Keeps (ledger b)
      (fun opened T' => T' = {id opened} ∨ id opened = "" ∧ b = false) (fun _ _ => True) ∅)
    (hafter : ∀ opened recording, (after opened recording).Always SameRecordings) :
    (finishing order before id after).Keeps (ledger b) (fun _ _ => True) (fun _ _ => True) ∅ :=
  hbefore.bind fun opened _ hT' =>
    (keeps_finishRecording order hT').bind fun recording _ _ =>
      keeps_quiet (hafter opened recording) (fun _ => trivial) fun _ => trivial

/-- A capture ends only what it has opened. -/
theorem keeps_captureRecording (order : RowOrder) (project title pluginName hex : String)
    (plugin : String → PluginRun) :
    (captureRecording order project title pluginName hex plugin).Keeps (ledger b)
      (fun _ _ => True) (fun _ _ => True) ∅ := by
  refine keeps_finishing order ?_ fun _ _ => trivial
  unfold capturedRecording
  rw [onStore_bind]
  refine (keeps_startRecording _ hex).bind fun id T' ⟨_, hT'⟩ => ?_
  subst hT'
  rw [onStore_bind]
  refine (keeps_failing ?_).bind fun _ T' hT' => .inl hT'
  exact (always_pluginResult _).bind fun _ => (always_pump id _).bind fun _ => always_pluginResult _

/-- An import ends only what it has opened. -/
theorem keeps_importRecording (models : Models) (order : RowOrder) (hex recordingHex : String)
    (eventHexes : List String) (doc : Dict String Value) :
    (importRecording models order hex recordingHex eventHexes doc).Keeps (ledger b)
      (fun _ _ => True) (fun _ _ => True) ∅ := by
  refine keeps_finishing order ?_ fun _ _ => trivial
  unfold importAppended importOpened
  rw [onStore_bind]
  refine Prog.Keeps.bind
    (P := fun r T' => T' = {r.recordingId} ∨ r.recordingId = "" ∧ b = false) ?_
    fun r T' hT' => ?_
  · cases parseBundle models doc with
    | error e => trivial
    | ok r =>
      simp only
      rw [onStore_bind]
      -- the check: a bundle without an id is not re-keyed when no recording has the empty id
      have hcheck : (onStore (getStatus r.recordingId)).Keeps (ledger b)
          (fun status T' => T' = ∅ ∧ (r.recordingId = "" → status.isSome = b)) (fun _ _ => True)
            ∅ := by
        unfold getStatus Prog.read
        refine keeps_onStore_tx (fun process status s' hfit hread => ?_) fun _ => trivial
        cases hread
        refine ⟨∅, (Ledger.Same.refl process).step hfit, rfl, fun hempty => ?_⟩
        rw [hempty, Option.isSome_map]
        exact hfit.inv
      refine hcheck.bind fun status T' ⟨hT', hstatus⟩ => ?_
      subst hT'
      rw [onStore_bind]
      refine (keeps_startRecording _ hex).bind fun id T' ⟨hid, hT'⟩ => ?_
      subst hT'
      subst hid
      by_cases hnamed : (if status.isSome then rekey recordingHex eventHexes r
        else r).recordingId = ""
      · refine .inr ⟨hnamed, ?_⟩
        split_ifs at hnamed with hsome
        · exact absurd hnamed (newId_ne _ _)
        · rw [← hstatus hnamed]
          simpa using hsome
      · left
        rw [chosenId_asNew hnamed]
  · rw [onStore_bind]
    exact keeps_quiet_bind (always_appendEvents _ _ _) fun _ => hT'

/-- A replay ends only what it has opened. -/
theorem keeps_runReplay (cfg : Config) (order : RowOrder) (env : ReplayEnv)
    (options : ReplayOptions) (recordingId : String) :
    (runReplay cfg order env options recordingId).Keeps (ledger b)
      (fun _ _ => True) (fun _ _ => True) ∅ := by
  refine keeps_finishing order ?_ fun source run => always_compareReplayed _ _ _ _ source run
  unfold replayStored
  rw [onStore_bind]
  refine Prog.Keeps.bind (P := fun _ T' => T' = ∅) ?_ fun _ T' hT' => ?_
  · cases ensureSafe options.target options.safety <;> trivial
  · subst hT'
    rw [onStore_bind]
    refine keeps_quiet_bind (always_getRecording recordingId) fun found => ?_
    cases found with
    | none => trivial
    | some source =>
      simp only
      rw [onStore_bind]
      -- from here on the replay holds its own recording, until it is finished or failed
      refine (keeps_startRecording _ env.hex).bind fun id T' ⟨hid, hT'⟩ => ?_
      have hid' : id = newId "rpl" env.hex := by
        rw [hid, NewRecording.chosenId]
        show (orElse (some (newId "rpl" env.hex)) _).getD "" = _
        rw [orElse, if_neg (by simp [newId_ne])]
        rfl
      rw [hid'] at hT'
      subst hT'
      rw [onStore_bind, onStore_tryCatch]
      refine Prog.Keeps.bind (P := fun _ T' => T' = {newId "rpl" env.hex}) ?_ fun _ T' hT' => ?_
      · -- a `ReplayError` fails the recording, and another exception goes through
        refine Prog.Keeps.tryCatch (E := fun _ T' => T' = {newId "rpl" env.hex}) ?_
          fun e T' hT' => ?_
        · cases replayedEvents env options source <;> rfl
        · subst hT'
          cases e with
          | replayError message =>
            unfold failReplay
            rw [onStore_bind]
            refine Prog.Keeps.bind (P := fun _ T' => T' = ∅) ?_ fun _ _ _ => trivial
            exact (keeps_failRecording _ message).mono (fun _ _ h => h) fun _ _ _ => trivial
          | _ => trivial
      · subst hT'
        rw [onStore_bind]
        exact keeps_quiet_bind (always_appendEvents _ _ _) fun _ => .inl rfl

/-- Every call keeps the rules. -/
theorem owns_of_isCall {p : Prog Process Error Unit} (hp : IsCall p) :
    (ledger b).Owns (p, ∅) := by
  obtain ⟨h⟩ := hp
  refine Prog.Keeps.bind (P := fun _ _ => True) ?_ fun _ _ _ => trivial
  -- one lemma for each service function; the quiet ones open and end nothing
  cases h with
  | startSession pluginName project title hex upstream plugin =>
    exact keeps_startSession pluginName project title hex upstream plugin
  | pump recordingId events =>
    exact keeps_quiet (always_pump recordingId events) (fun _ => trivial) fun _ => trivial
  | stopSession order recordingId stopped drained =>
    exact keeps_stopSession order recordingId stopped drained
  | captureRecording order project title pluginName hex plugin =>
    exact keeps_captureRecording order project title pluginName hex plugin
  | ingestEvents recordingId events =>
    exact keeps_quiet (always_ingestEvents recordingId events) (fun _ => trivial) fun _ => trivial
  | importRecording models order hex recordingHex eventHexes doc =>
    exact keeps_importRecording models order hex recordingHex eventHexes doc
  | runReplay cfg order env options recordingId =>
    exact keeps_runReplay cfg order env options recordingId

end Keeps

/-- A process that has just started on a store. -/
def started (s : Store) : List (Prog Process Error Unit) × Process :=
  ([], { store := s, sessions := [], commits := [] })

/-- At the start nobody holds anything. -/
theorem held_started (s : Store) :
    (ledger (s.recordings.find? "").isSome).Held (started s) :=
  Ledger.held_nil Error (fun _ h => by cases h) rfl rfl

/-- **Terminal statuses are final.** Whatever turns the calls take and whichever of their steps
fail, a status that is not RECORDING stays, and no recording is finished twice. -/
theorem terminal_final {s : Store} {c c' : List (Prog Process Error Unit) × Process}
    (h : Prog.Turns IsCall (started s) c) (h' : Prog.Turns IsCall c c') :
    (∀ recordingId row, c.2.store.recordings.find? recordingId = some row →
      row.status ≠ .recording → ∃ row', c'.2.store.recordings.find? recordingId = some row' ∧
        row'.status = row.status) ∧ c'.2.commits.Nodup := by
  have hheld := held_started s
  refine ⟨fun recordingId row hrow hstatus => ?_,
    Ledger.nodup_log (fun _ => owns_of_isCall) hheld (h.trans h')⟩
  have hfinal : (ledger (s.recordings.find? "").isSome).Final c.2 recordingId :=
    ⟨row.status, by rw [status_ledger, hrow]; rfl, hstatus⟩
  have hkept := Ledger.final_of_turns (fun _ => owns_of_isCall) hheld h h' hfinal
  rw [status_ledger, status_ledger, hrow] at hkept
  obtain ⟨row', hrow', hsame⟩ := Option.map_eq_some_iff.mp hkept
  exact ⟨row', hrow', hsame⟩

/-- A one-shot capture of one request that runs to its end. -/
theorem terminal_final_capture :
    ∃ tasks process, Prog.Turns IsCall (started .empty) (tasks, process) ∧
      process.commits = ["rec_a"] ∧ process.commits.Nodup := by
  have hcall : Prog.Turns IsCall (started .empty)
      ([(captureRecording .bySequence "" "" "mock_capture" "a" fun _ =>
        { events := [.brief .httpRequest "evt_1" "corr_1" 0] }).discard], (started .empty).2) :=
    .single (.call (.intro (.captureRecording _ _ _ _ _ _)))
  obtain ⟨p', hrun⟩ := Prog.Turns.run IsCall _ [] (started .empty).2
  exact ⟨_, _, hcall.trans hrun, rfl, (terminal_final (hcall.trans hrun) .refl).2⟩

end Process

end InfraReplay
