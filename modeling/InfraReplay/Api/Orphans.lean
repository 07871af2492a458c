import InfraReplay.Api.Terminal
import InfraReplay.Capture.Lifecycle
import InfraReplay.Common.Pool

/-!
# Captures that nobody can end

A live capture is opened by `start_session` and ended by `stop_session`, a one-shot capture is
opened and ended by `capture_recording`. Each call is written as the stages it goes through, and
any of its transactions may fail; `Caller.next_code` and `Caller.failed_code` say that this is what
the program of the call does.

`start_session` and the `try` of `capture_recording` hand an exception to `fail_recording`.
`stop_session` has taken the session out of `_SESSIONS` before the four awaits that may raise, and
`capture_recording` calls `finish_recording` behind its `try`: an exception there leaves a recording
in RECORDING that no call can end any more (`not_unorphaned_blob`). In a run in which none of these
raises (`Callers.unguarded`), no capture is orphaned (`unorphaned_of_guarded`).
-/

namespace InfraReplay

open Python

/-! ### The calls -/

/-- Where a call stands, or a task that adds events. -/
inductive Caller where
  /-- `start_session`. -/
  | starting (pluginName project title hex : String) (upstream : Option String)
      (plugin : String → PluginRun)
  /-- `start_session`, when the plugin has started. -/
  | registering (recordingId : String)
  /-- `stop_session`, with what the plugin and the awaited pump raise. -/
  | stopping (recordingId : String) (stopped drained : Except Error Unit)
  /-- `capture_recording`. -/
  | capturing (project title pluginName hex : String) (plugin : String → PluginRun)
  /-- `capture_recording` in its `try`, with the events that are left. -/
  | pumping (recordingId : String) (event : Event) (events : List Event)
      (stopped : Except Error Unit)
  /-- About to call `fail_recording`, and to raise then. -/
  | failing (recordingId reason : String) (e : Error)
  /-- In `finish_recording`. -/
  | finishing (recordingId : String) (finisher : Finisher)
  /-- A pump, or a call of `ingest_events`. -/
  | appending (recordingId : String) (appender : Appender)
  | returned
  /-- The call has raised, over the recording it was to end if there was one. -/
  | raised (recordingId : Option String) (e : Error)

/-- The row of a live capture. -/
def liveCapture (pluginName project title : String) (upstream : Option String) : NewRecording where
  project := project
  title := if title = "" then pluginName ++ " capture" else title
  capturePlugin := pluginName
  target := upstream

/-- The row of a one-shot capture. -/
def shotCapture (project title pluginName : String) : NewRecording where
  project := project
  title := title
  capturePlugin := pluginName

namespace Caller

/-- `capture_recording` in its `try`, when the plugin still yields `events`. -/
def pumped (recordingId : String) (stopped : Except Error Unit) : List Event → Caller
  | event :: events => .pumping recordingId event events stopped
  | [] =>
    match stopped with
    | .ok () => .finishing recordingId .start
    | .error exc => .failing recordingId exc.text exc

/-- `start_session`, when the row is in. -/
def opening (recordingId : String) : Except Error Unit → Caller
  | .ok () => .registering recordingId
  | .error exc => .failing recordingId exc.text (.captureError exc.text)

/-- `capture_recording`, when the row is in. -/
def trying (recordingId : String) (plugin : PluginRun) : Caller :=
  match plugin.started with
  | .ok () => pumped recordingId plugin.stopped plugin.events
  | .error exc => .failing recordingId exc.text exc

/-- `stop_session`, when it has the session. -/
def closing (recordingId : String) : Except Error Unit → Except Error Unit → Caller
  | .error e, _ => .raised (some recordingId) e
  | .ok (), .error e => .raised (some recordingId) e
  | .ok (), .ok () => .finishing recordingId .start

/-- A call in `finish_recording`, or behind it. -/
def ofFinisher (recordingId : String) : Finisher → Caller
  | .returned _ => .returned
  | .raised e => .raised (some recordingId) e
  | finisher => .finishing recordingId finisher

end Caller

namespace Process

theorem onStore_pure {α : Type} (a : α) : onStore (pure a) = pure a := rfl

/-- A transaction on the store commits or raises, and the rest goes on. -/
theorem step_onStore_tx_bind {α β : Type} (f : Store → Except Error (α × Store))
    (g : α → Prog Process Error β) (process : Process) :
    (onStore (Prog.tx f) >>= g).step process =
      some (match f process.store with
        | .ok (a, s) => (g a, { process with store := s })
        | .error e => (throw e, process)) := by
  unfold onStore
  show some ((Prog.zoom _ _ _).bind g, _) = _
  simp only [Except.map]
  cases f process.store <;> rfl

/-- So does a call, which may change the store where it raises. -/
theorem step_onStore_call_bind {α β : Type} (f : Store → Except Error α × Store)
    (g : α → Prog Process Error β) (process : Process) :
    (onStore (Prog.call f) >>= g).step process =
      some (match f process.store with
        | (.ok a, s) => (g a, { process with store := s })
        | (.error e, s) => (throw e, { process with store := s })) := by
  rw [Prog.call, onStore_bind, bind_assoc, step_onStore_tx_bind]
  obtain ⟨outcome, s⟩ := f process.store
  cases outcome <;> rfl

/-- A transaction in a `try` commits, or the handler takes over. -/
theorem step_onStore_tryCatch_bind {α β γ : Type} (f : Store → Except Error (α × Store))
    (g : α → Prog Store Error β) (handler : Error → Prog Store Error β)
    (k : β → Prog Process Error γ) (process : Process) :
    (onStore (tryCatch (Prog.tx f >>= g) handler) >>= k).step process =
      some (match f process.store with
        | .ok (a, s) => (onStore (tryCatch (g a) handler) >>= k, { process with store := s })
        | .error e => (onStore (handler e) >>= k, process)) := by
  show some ((Prog.zoom _ _ (Prog.tryCatch _ _)).bind k, _) = _
  simp only [Except.map]
  cases f process.store <;> rfl

/-- Reading the store takes one step and leaves the process alone. -/
theorem step_onStore_read_bind {α β : Type} (f : Store → α) (g : α → Prog Process Error β)
    (process : Process) :
    (onStore (Prog.read f) >>= g).step process = some (g (f process.store), process) :=
  step_onStore_tx_bind _ g process

/-- The commit of `finish_recording`, and what follows. -/
def commitCode (recordingId : String) (row : RecordingRow) (events : List Event)
    (locator : List String) : Prog Process Error Recording := do
  Prog.tx fun process => .ok ((), { process with
    store := process.store.complete recordingId events locator
    commits := process.commits ++ [recordingId] })
  return rowToRecording { row with status := .completed } events

/-- The snapshot of `finish_recording`, and what follows. -/
def snapshotCode (recordingId : String) (row : RecordingRow) (events : List Event) :
    Prog Process Error Recording := do
  let locator ← onStore
    (Prog.call (Store.putBlob (snapshotKey recordingId) (snapshotDoc row events)))
  commitCode recordingId row events locator

/-- What is left of the program of `finish_recording`. -/
def finisherCode (order : RowOrder) (recordingId : String) :
    Finisher → Prog Process Error Recording
  | .start => finishRecording order recordingId
  | .hasRow row => do
    let events ← onStore (Prog.read fun s => correlate (s.eventsFor order recordingId))
    snapshotCode recordingId row events
  | .hasEvents row events => snapshotCode recordingId row events
  | .hasBlob row events locator => commitCode recordingId row events locator
  | .returned recording => return recording
  | .raised e => throw e

/-- `capture_recording`, when the plugin still yields `events`. -/
def pumpCode (order : RowOrder) (recordingId : String) (events : List Event)
    (stopped : Except Error Unit) : Prog Process Error Unit := do
  onStore (tryCatch
    (do
      pump recordingId events
      pluginResult stopped)
    fun exc => do
      failRecording recordingId exc.text
      throw exc)
  (finishRecording order recordingId).discard

/-- The commits after the next step of `finish_recording`. -/
def commitsAfter (recordingId : String) (process : Process) : Finisher → List String
  | .hasBlob _ _ _ => process.commits ++ [recordingId]
  | _ => process.commits

/-- The next step of `finish_recording`. -/
def finisherStep (order : RowOrder) (recordingId : String) (process : Process)
    (finisher : Finisher) : Option (Finisher × Process) :=
  (finisher.step order recordingId process.store).map fun next =>
    (next.1, { process with
      store := next.2
      commits := commitsAfter recordingId process finisher })

end Process

namespace Caller

variable (order : RowOrder)

/-- What is left of the program of a call. -/
def code : Caller → Prog Process Error Unit
  | .starting pluginName project title hex upstream plugin =>
    (Process.startSession pluginName project title hex upstream plugin).discard
  | .registering recordingId => Process.register recordingId
  | .stopping recordingId stopped drained =>
    (Process.stopSession order recordingId stopped drained).discard
  | .capturing project title pluginName hex plugin =>
    (Process.captureRecording order project title pluginName hex plugin).discard
  | .pumping recordingId event events stopped =>
    Process.pumpCode order recordingId (event :: events) stopped
  | .failing recordingId reason e => do
    Process.onStore (failRecording recordingId reason)
    throw e
  | .finishing recordingId finisher => (Process.finisherCode order recordingId finisher).discard
  | .appending recordingId appender => Process.onStore (appender.code recordingId)
  | .returned => return ()
  | .raised _ e => throw e

/-- The next step of a call. -/
def next (process : Process) : Caller → Option (Caller × Process)
  | .starting pluginName project title hex upstream plugin =>
    let new := liveCapture pluginName project title upstream
    match process.store.addRecording (new.row hex) with
    | .ok ((), s) =>
      some (opening (new.chosenId hex) (plugin (new.chosenId hex)).started,
        { process with store := s })
    | .error e => some (.raised none e, process)
  | .registering recordingId =>
    some (.returned, { process with
      sessions := process.sessions.filter (· ≠ recordingId) ++ [recordingId] })
  | .stopping recordingId stopped drained =>
    -- the session is gone, whatever follows
    some (if recordingId ∈ process.sessions then closing recordingId stopped drained
        else .raised none (.captureError ("no live capture session " ++ quoted recordingId)),
      { process with sessions := process.sessions.filter (· ≠ recordingId) })
  | .capturing project title pluginName hex plugin =>
    let new := shotCapture project title pluginName
    match process.store.addRecording (new.row hex) with
    | .ok ((), s) =>
      some (trying (new.chosenId hex) (plugin (new.chosenId hex)), { process with store := s })
    | .error e => some (.raised none e, process)
  | .pumping recordingId event events stopped =>
    match process.store.addEvents (redactedRows [event] []) with
    | .ok ((), s) => some (pumped recordingId stopped events, { process with store := s })
    | .error exc => some (.failing recordingId exc.text exc, process)
  | .failing recordingId reason e =>
    some (.raised (some recordingId) e, { process with
      store := process.store.setRecording recordingId (RecordingRow.failed reason)
        (RecordingRow.recordingId_failed reason) })
  | .finishing recordingId finisher =>
    (Process.finisherStep order recordingId process finisher).map fun next =>
      (ofFinisher recordingId next.1, next.2)
  | .appending recordingId appender =>
    (appender.step recordingId process.store).map fun next =>
      (.appending recordingId next.1, { process with store := next.2 })
  | .returned | .raised _ _ => none

/-- What becomes of a call when its next transaction fails. A step in memory does not fail. -/
def failed (e : Error) : Caller → Option Caller
  | .starting _ _ _ _ _ _ | .capturing _ _ _ _ _ => some (.raised none e)
  | .pumping recordingId _ _ _ => some (.failing recordingId e.text e)
  | .failing recordingId _ _ => some (.raised (some recordingId) e)
  | .finishing recordingId finisher =>
    match finisher with
    | .returned _ | .raised _ => none
    | _ => some (.raised (some recordingId) e)
  | .appending recordingId appender =>
    match appender with
    | .ingest _ | .ingestOpen _ _ | .pump (_ :: _) => some (.appending recordingId (.raised e))
    | _ => none
  | _ => none

variable {order}

/-- What stands behind a call that fails its recording and raises is not reached. -/
theorem code_failing (recordingId reason : String) (e : Error) {α : Type}
    (g : α → Prog Process Error Unit) :
    (Process.onStore (do
      failRecording recordingId reason
      throw e) >>= g) = (failing recordingId reason e).code order := by
  rw [Process.onStore_bind, bind_assoc]
  rfl

/-- A pumping caller is the pump and then the finisher. -/
theorem code_pumped (recordingId : String) (stopped : Except Error Unit) (events : List Event) :
    (pumped recordingId stopped events).code order =
      Process.pumpCode order recordingId events stopped := by
  cases events with
  | nil =>
    cases stopped with
    | ok u => rfl
    | error exc => exact (code_failing recordingId exc.text exc _).symm
  | cons event events => rfl

/-- A finishing caller is its finisher, with the result dropped. -/
theorem code_ofFinisher (recordingId : String) (finisher : Finisher) :
    (ofFinisher recordingId finisher).code order =
      (Process.finisherCode order recordingId finisher).discard := by
  cases finisher <;> rfl

/-- A step of `finish_recording` is the next atomic step of its program. -/
theorem step_finisherCode (recordingId : String) (finisher : Finisher) (process : Process) :
    (Process.finisherCode order recordingId finisher).discard.step process =
      (Process.finisherStep order recordingId process finisher).map fun next =>
        ((Process.finisherCode order recordingId next.1).discard, next.2) := by
  unfold Process.finisherStep Prog.discard
  cases finisher with
  | start =>
    rw [Process.finisherCode, Process.finishRecording, bind_assoc, Process.step_onStore_read_bind,
      Finisher.step]
    cases process.store.recordings.find? recordingId <;> rfl
  | hasRow row =>
    rw [Process.finisherCode, bind_assoc, Process.step_onStore_read_bind, Finisher.step,
      Option.map_some, Option.map_some]
    rfl
  | hasEvents row events =>
    rw [Process.finisherCode, Process.snapshotCode, bind_assoc, Process.step_onStore_call_bind,
      Finisher.step]
    -- a snapshot that is refused ends both in the same exception
    rcases process.store.putBlob (snapshotKey recordingId) (snapshotDoc row events) with
      ⟨e | path, s⟩ <;> rfl
  | hasBlob row events locator => rfl
  | returned recording => rfl
  | raised e => rfl

/-- A caller that opens a session starts its plugin and then registers it. -/
theorem code_opening (recordingId : String) (started : Except Error Unit) :
    (opening recordingId started).code order = (do
      Process.onStore (openSession recordingId started)
      Process.register recordingId) := by
  cases started with
  | ok u => rfl
  | error exc => exact (code_failing recordingId exc.text (.captureError exc.text) _).symm

/-- A one-shot capture is the `try` of `capture_recording`. -/
theorem code_trying (recordingId : String) (plugin : PluginRun) :
    (trying recordingId plugin).code order = (do
      Process.onStore (tryCatch
        (do
          pluginResult plugin.started
          pump recordingId plugin.events
          pluginResult plugin.stopped)
        fun exc => do
          failRecording recordingId exc.text
          throw exc)
      (Process.finishRecording order recordingId).discard) := by
  unfold trying
  cases plugin.started with
  | ok u => exact code_pumped recordingId plugin.stopped plugin.events
  | error exc => exact (code_failing recordingId exc.text exc _).symm

/-- `start_session` is the insertion of its row and then what follows of it. -/
theorem code_starting (pluginName project title hex : String) (upstream : Option String)
    (plugin : String → PluginRun) :
    (Process.startSession pluginName project title hex upstream plugin).discard = (do
      Process.onStore (Prog.tx (Store.addRecording
        ((liveCapture pluginName project title upstream).row hex)))
      let recordingId := (liveCapture pluginName project title upstream).chosenId hex
      (opening recordingId (plugin recordingId).started).code order) := by
  unfold Process.startSession InfraReplay.startSession startRecording Prog.discard
  simp only [Process.onStore_bind, Process.onStore_pure, bind_assoc, pure_bind, code_opening,
    bind_pure_unit]
  rfl

/-- `capture_recording` is the insertion of its row and then its `try`. -/
theorem code_capturing (project title pluginName hex : String) (plugin : String → PluginRun) :
    (Process.captureRecording order project title pluginName hex plugin).discard = (do
      Process.onStore (Prog.tx (Store.addRecording
        ((shotCapture project title pluginName).row hex)))
      let recordingId := (shotCapture project title pluginName).chosenId hex
      (trying recordingId (plugin recordingId)).code order) := by
  unfold Process.captureRecording Process.finishing capturedRecording startRecording Prog.discard
  simp only [Process.onStore_bind, Process.onStore_pure, bind_assoc, pure_bind, code_trying]
  rfl

/-- `stop_session` takes the session out and closes it, or says that there is none. -/
theorem code_stopping (recordingId : String) (stopped drained : Except Error Unit) :
    (Process.stopSession order recordingId stopped drained).discard =
      Process.popSession recordingId >>= fun found =>
        (if found then closing recordingId stopped drained
          else .raised none (.captureError ("no live capture session " ++ quoted recordingId))).code
            order := by
  unfold Process.stopSession Prog.discard
  rw [bind_assoc]
  refine congrArg (_ >>= ·) (funext fun found => ?_)
  cases found with
  | false => rfl
  | true => cases stopped <;> cases drained <;> rfl

/-- The pump appends one event in one transaction. -/
theorem step_pumpCode (recordingId : String) (event : Event) (events : List Event)
    (stopped : Except Error Unit) (process : Process) :
    (Process.pumpCode order recordingId (event :: events) stopped).step process =
      some (match process.store.addEvents (redactedRows [event] []) with
        | .ok ((), s) =>
          (Process.pumpCode order recordingId events stopped, { process with store := s })
        | .error exc => ((failing recordingId exc.text exc).code order, process)) := by
  have happend : (do
      pump recordingId (event :: events)
      pluginResult stopped) = (do
        Prog.tx (Store.addEvents (redactedRows [event] []))
        pump recordingId events
        pluginResult stopped) := by
    rw [pump, appendEvents, if_neg (List.cons_ne_nil _ _)]
    simp only [bind_assoc, pure_bind]
  rw [Process.pumpCode, happend, Process.step_onStore_tryCatch_bind]
  cases process.store.addEvents (redactedRows [event] []) with
  | ok result => rfl
  | error exc => exact congrArg (fun p => some (p, process)) (code_failing recordingId _ exc _)

/-- A turn of a call is the next atomic step of its program. -/
theorem next_code (c : Caller) (process : Process) :
    (c.code order).step process =
      (c.next order process).map fun next => (next.1.code order, next.2) := by
  cases c with
  | starting pluginName project title hex upstream plugin =>
    rw [code, code_starting, Process.step_onStore_tx_bind, next]
    cases process.store.addRecording
      ((liveCapture pluginName project title upstream).row hex) <;> rfl
  | registering recordingId => rfl
  | stopping recordingId stopped drained =>
    -- `pop` is one step, and what follows is decided by what it found
    rw [code, code_stopping, Process.popSession, Prog.step_tx_bind, next, Option.map_some]
    simp only [decide_eq_true_eq]
  | capturing project title pluginName hex plugin =>
    rw [code, code_capturing, Process.step_onStore_tx_bind, next]
    cases process.store.addRecording ((shotCapture project title pluginName).row hex) <;> rfl
  | pumping recordingId event events stopped =>
    rw [code, step_pumpCode, next]
    cases process.store.addEvents (redactedRows [event] []) with
    | error exc => rfl
    | ok result => simp only [Option.map_some, code_pumped]
  | failing recordingId reason e => rfl
  | finishing recordingId finisher =>
    rw [code, step_finisherCode, next, Option.map_map]
    simp only [Function.comp_def, code_ofFinisher]
  | appending recordingId appender =>
    rw [code, Process.onStore, Prog.step_zoom, Appender.step_code, next, Option.map_map,
      Option.map_map]
    rfl
  | returned => rfl
  | raised recordingId e => rfl

/-- The program of a call goes on after a failure as the call does. -/
theorem failed_code {c c' : Caller} {e : Error} (h : c.failed e = some c') :
    (c.code order).fail e = some (c'.code order) := by
  cases c with
  | starting pluginName project title hex upstream plugin =>
    cases h
    rfl
  | capturing project title pluginName hex plugin =>
    cases h
    rfl
  | pumping recordingId event events stopped =>
    cases h
    exact congrArg some (code_failing recordingId e.text e _)
  | failing recordingId reason e' =>
    cases h
    rfl
  | finishing recordingId finisher => cases finisher <;> cases h <;> rfl
  | appending recordingId appender =>
    cases appender with
    -- what a commit of append_events raises goes on to the caller
    | ingest batch =>
      cases h
      rfl
    | ingestOpen event batch =>
      cases h
      rfl
    | pump events =>
      cases events with
      | nil => cases h
      | cons event events =>
        cases h
        rfl
    | _ => cases h
  | _ => cases h

/-- The recording that the call has taken on and not given away. -/
def holds : Caller → Option String
  | .registering recordingId | .pumping recordingId _ _ _ | .failing recordingId _ _
  | .finishing recordingId _ => some recordingId
  | _ => none

/-- The call has not begun. -/
def isFirst : Caller → Bool
  | .starting _ _ _ _ _ _ | .stopping _ _ _ | .capturing _ _ _ _ _ | .appending _ _ => true
  | _ => false

end Caller

/-! ### Runs -/

/-- The calls, the store and the sessions. -/
abbrev Callers : Type := Pool Process Caller

/-- Whose turn it is, and whether its transaction fails. -/
inductive CallTurn where
  | step (i : ℕ)
  | fail (i : ℕ) (e : Error)

/-- One turn. -/
def Callers.step (order : RowOrder) (p : Callers) : CallTurn → Option Callers
  | .step i => Pool.step (Caller.next order) p i
  | .fail i e => Pool.step (fun process c => (c.failed e).map (·, process)) p i

/-- The next step of `finish_recording` raises. -/
def Finisher.raises (recordingId : String) (s : Store) : Finisher → Bool
  | .start => (s.recordings.find? recordingId).isNone
  | .hasEvents _ _ => !s.blobs.takesKey (snapshotKey recordingId)
  | _ => false

/-- The next step of the call raises where no `fail_recording` follows: in `stop_session` behind
the removal of the session, or in `finish_recording`. -/
def Caller.unguardedStep (process : Process) : Caller → Bool
  | .stopping recordingId stopped drained =>
    decide (recordingId ∈ process.sessions) && !(stopped.toBool && drained.toBool)
  | .finishing recordingId finisher => finisher.raises recordingId process.store
  | _ => false

/-- When the next transaction of the call fails, no `fail_recording` follows. -/
def Caller.unguardedFailure : Caller → Bool
  | .failing _ _ _ | .finishing _ _ => true
  | _ => false

/-- The turn raises where no `fail_recording` follows. -/
def Callers.unguarded (p : Callers) : CallTurn → Bool
  | .step i => p.tasks[i]?.any (Caller.unguardedStep p.state)
  | .fail i _ => p.tasks[i]?.any Caller.unguardedFailure

/-- The recording is over. -/
def Store.Ended (s : Store) (recordingId : String) : Prop :=
  ∃ row, s.recordings.find? recordingId = some row ∧ row.status ≠ .recording

/-- No capture is orphaned, when `s₀` is the store at the start: a call that has raised leaves its
recording over or its session registered, and when no call is under way, what has been opened and
is not over has a session. -/
structure Callers.Unorphaned (s₀ : Store) (p : Callers) : Prop where
  raised : ∀ recordingId e, .raised (some recordingId) e ∈ p.tasks →
    p.state.store.Ended recordingId ∨ recordingId ∈ p.state.sessions
  idle : (∀ c ∈ p.tasks, c.holds = none) → ∀ recordingId, p.state.store.Open recordingId →
    recordingId ∈ p.state.sessions ∨ s₀.Open recordingId

/-- The process has just started and no call has begun. -/
structure Callers.Starting (p : Callers) : Prop where
  sessions : p.state.sessions = []
  first : ∀ c ∈ p.tasks, c.isFirst = true

/-! ### What a turn does -/

section Steps

variable {order : RowOrder} {c c' : Caller} {process process' : Process} {recordingId : String}

/-- No row goes, and what is over stays over. -/
def Store.Onward (s s' : Store) : Prop :=
  ∀ recordingId row, s.recordings.find? recordingId = some row →
    ∃ row', s'.recordings.find? recordingId = some row' ∧
      (row.status ≠ .recording → row'.status ≠ .recording)

/-- A step that leaves the recordings alone goes onward. -/
theorem Store.Onward.of_eq {s s' : Store} (h : s'.recordings = s.recordings) : s.Onward s' :=
  fun _ row hrow => ⟨row, by rw [h, hrow], fun hstatus => hstatus⟩

/-- Going onward loses no row. -/
theorem Store.Onward.isSome {s s' : Store} (h : s.Onward s')
    (hrow : (s.recordings.find? recordingId).isSome) :
    (s'.recordings.find? recordingId).isSome := by
  obtain ⟨row, hrow⟩ := Option.isSome_iff_exists.mp hrow
  obtain ⟨row', hrow', -⟩ := h recordingId row hrow
  rw [hrow']
  rfl

/-- Going onward, an ended recording stays ended. -/
theorem Store.Ended.onward {s s' : Store} (hended : s.Ended recordingId) (h : s.Onward s') :
    s'.Ended recordingId := by
  obtain ⟨row, hrow, hstatus⟩ := hended
  obtain ⟨row', hrow', hkept⟩ := h recordingId row hrow
  exact ⟨row', hrow', hkept hstatus⟩

/-- What a turn of a call may do, so that no recording gets lost: what is open after it was so
before, unless the call holds it; and what the call or `_SESSIONS` held is still held, or over. -/
structure Caller.Moves (c : Caller) (process : Process) (c' : Caller) (process' : Process) :
    Prop where
  onward : process.store.Onward process'.store
  raised : ∀ recordingId e, c' = .raised (some recordingId) e →
    process'.store.Ended recordingId
  rows : ∀ recordingId, recordingId ∈ process'.sessions ∨ c'.holds = some recordingId →
    recordingId ∈ process.sessions ∨ c.holds = some recordingId ∨
      (process'.store.recordings.find? recordingId).isSome
  covered : ∀ recordingId, process'.store.Open recordingId →
    recordingId ∈ process'.sessions ∨ c'.holds = some recordingId ∨
      process.store.Open recordingId ∧ recordingId ∉ process.sessions ∧
        c.holds ≠ some recordingId

namespace Caller

/-- A turn that leaves the recordings alone and after which the call holds what it held. -/
theorem Moves.quiet (hstore : process'.store.recordings = process.store.recordings)
    (hsessions : process'.sessions = process.sessions) (hholds : c'.holds = c.holds)
    (hraised : ∀ recordingId e, c' ≠ .raised (some recordingId) e) :
    c.Moves process c' process' where
  onward := .of_eq hstore
  raised recordingId e h := absurd h (hraised recordingId e)
  rows recordingId h := by
    rw [hsessions, hholds] at h
    exact h.imp_right .inl
  covered recordingId hopen := by
    unfold Store.Open at hopen ⊢
    rw [hsessions, hholds, ← hstore]
    by_cases hsession : recordingId ∈ process.sessions
    · exact .inl hsession
    · by_cases hheld : c.holds = some recordingId
      · exact .inr (.inl hheld)
      · exact .inr (.inr ⟨hopen, hsession, hheld⟩)

/-- A turn that opens a recording and holds it. -/
theorem Moves.opens {row : RecordingRow} {u : Unit} {s : Store}
    (hadd : process.store.addRecording row = .ok (u, s)) (hfirst : c.holds = none)
    (hholds : c'.holds = some row.recordingId) :
    c.Moves process c' { process with store := s } where
  onward recordingId row' hrow' := by
    -- the new id was not taken, so a row that was there is another one
    have hne : recordingId ≠ row.recordingId := by
      rintro rfl
      refine Store.not_mem_of_addRecording hadd ?_
      obtain ⟨hmem, hid⟩ := Table.find?_eq_some_iff.mp hrow'
      exact List.mem_map.mpr ⟨row', hmem, hid⟩
    exact ⟨row', by rw [Store.find?_addRecording_of_ne hadd hne, hrow'], fun hstatus => hstatus⟩
  raised recordingId e h := by
    rw [h] at hholds
    cases hholds
  rows recordingId h := by
    rcases h with hsession | hheld
    · exact .inl hsession
    · obtain rfl : row.recordingId = recordingId := Option.some.inj (hholds.symm.trans hheld)
      right
      right
      rw [Store.find?_addRecording hadd]
      rfl
  covered recordingId hopen := by
    by_cases hnew : recordingId = row.recordingId
    -- the recording that is open now is in the hands of the call
    · exact .inr (.inl (by rw [hholds, hnew]))
    · by_cases hsession : recordingId ∈ process.sessions
      · exact .inl hsession
      · obtain ⟨row', hrow', hstatus⟩ := hopen
        rw [Store.find?_addRecording_of_ne hadd hnew] at hrow'
        exact .inr (.inr ⟨⟨row', hrow', hstatus⟩, hsession, by rw [hfirst]; exact nofun⟩)

/-- A turn that ends the recording the call holds. -/
theorem Moves.ends (hheld : c.holds = some recordingId)
    (hsessions : process'.sessions = process.sessions) (hholds : c'.holds = none)
    (hraised : ∀ other e, c' = .raised (some other) e → other = recordingId)
    (hended : process'.store.Ended recordingId)
    (hothers : ∀ other ≠ recordingId,
      process'.store.recordings.find? other = process.store.recordings.find? other) :
    c.Moves process c' process' where
  onward other row hrow := by
    by_cases hother : other = recordingId
    · obtain ⟨row', hrow', hstatus⟩ := hended
      rw [hother]
      exact ⟨row', hrow', fun _ => hstatus⟩
    · exact ⟨row, by rw [hothers other hother, hrow], fun hstatus => hstatus⟩
  raised other e h := by
    rw [hraised other e h]
    exact hended
  rows other h := by
    rw [hsessions, hholds] at h
    exact .inl (h.resolve_right (by simp))
  covered other hopen := by
    obtain ⟨row, hrow, hstatus⟩ := hopen
    -- the recording that has ended is not open
    have hother : other ≠ recordingId := by
      rintro rfl
      obtain ⟨row', hrow', hover⟩ := hended
      rw [hrow] at hrow'
      cases hrow'
      exact hover hstatus
    rw [hothers other hother] at hrow
    rw [hsessions, hheld]
    by_cases hsession : other ∈ process.sessions
    · exact .inl hsession
    · exact .inr (.inr ⟨⟨row, hrow, hstatus⟩, hsession, fun h => hother (Option.some.inj h).symm⟩)

/-- A pumping caller holds its recording. -/
theorem holds_pumped (stopped : Except Error Unit) (events : List Event) :
    (pumped recordingId stopped events).holds = some recordingId := by
  cases events with
  | nil => cases stopped <;> rfl
  | cons event events => rfl

/-- A caller that opens a session holds its recording. -/
theorem holds_opening (started : Except Error Unit) :
    (opening recordingId started).holds = some recordingId := by
  cases started <;> rfl

/-- A one-shot capture holds its recording. -/
theorem holds_trying (plugin : PluginRun) :
    (trying recordingId plugin).holds = some recordingId := by
  unfold trying
  cases plugin.started with
  | ok u => exact holds_pumped plugin.stopped plugin.events
  | error exc => rfl

/-- A call that has not begun holds nothing. -/
theorem holds_of_isFirst (h : c.isFirst = true) : c.holds = none := by
  cases c <;> first | rfl | cases h

/-- A caller that holds a recording has not raised. -/
theorem ne_raised_of_holds {c : Caller} (h : c.holds = some recordingId) (other : Option String)
    (e : Error) : c ≠ .raised other e := by
  rintro rfl
  cases h

/-- A step of `finish_recording` that does not raise. -/
theorem moves_finishing {finisher finisher' : Finisher}
    (hrow : (process.store.recordings.find? recordingId).isSome)
    (hraises : finisher.raises recordingId process.store = false)
    (h : Process.finisherStep order recordingId process finisher = some (finisher', process')) :
    (finishing recordingId finisher).Moves process (ofFinisher recordingId finisher') process' := by
  obtain ⟨⟨f, s⟩, hstep, heq⟩ := Option.map_eq_some_iff.mp h
  cases heq
  cases finisher with
  | start =>
    rw [Finisher.step] at hstep
    cases hfind : process.store.recordings.find? recordingId with
    | none =>
      rw [Finisher.raises, hfind] at hraises
      cases hraises
    | some row =>
      rw [hfind] at hstep
      cases hstep
      exact .quiet rfl rfl rfl (fun _ _ h => by cases h)
  | hasRow row =>
    cases hstep
    exact .quiet rfl rfl rfl (fun _ _ h => by cases h)
  | hasEvents row events =>
    rw [Finisher.raises, Bool.not_eq_false'] at hraises
    obtain ⟨path, hpath, htakes⟩ := BlobRoot.takesKey_iff.mp hraises
    obtain ⟨s', hput⟩ := Store.exists_putBlob hpath htakes (snapshotDoc row events)
    rw [Finisher.step, hput] at hstep
    cases hstep
    obtain ⟨-, b, rfl, -⟩ := Store.putBlob_eq_ok hput
    exact .quiet rfl rfl rfl (fun _ _ h => by cases h)
  | hasBlob row events locator =>
    cases hstep
    refine Moves.ends rfl rfl rfl (fun _ _ h => by cases h) ?_ fun other hother =>
      Store.find?_complete_of_ne hother events locator
    -- the commit
    obtain ⟨row', hrow'⟩ := Option.isSome_iff_exists.mp hrow
    have hid : row'.recordingId = recordingId := (Table.find?_eq_some_iff.mp hrow').2
    refine ⟨_, by rw [Store.find?_complete, hrow', Option.map_some, if_pos hid], by simp⟩
  | returned recording => cases hstep
  | raised e => cases hstep

/-- `live_sessions[recording_id] = ctx`: the id moves from the call to the sessions. -/
theorem moves_registering :
    (registering recordingId).Moves process .returned
      { process with sessions := process.sessions.filter (fun other => other ≠ recordingId) ++
        [recordingId] } := by
  refine ⟨.of_eq rfl, nofun, fun other hother => ?_, fun other hopen => ?_⟩
  · rcases List.mem_append.mp (hother.resolve_right (by simp [holds])) with hmem | hmem
    · exact .inl (List.mem_filter.mp hmem).1
    · exact .inr (.inl (congrArg some (List.mem_singleton.mp hmem).symm))
  · by_cases hother : other = recordingId
    · exact .inl (List.mem_append_right _ (List.mem_singleton.mpr hother))
    · by_cases hsession : other ∈ process.sessions
      · refine .inl (List.mem_append_left _ (List.mem_filter.mpr ⟨hsession, ?_⟩))
        simpa using hother
      · exact .inr (.inr ⟨hopen, hsession, fun h => hother (Option.some.inj h).symm⟩)

/-- `live_sessions.pop(recording_id)`: a session taken out is in the hands of the call, which goes
on to `finish_recording`. -/
theorem moves_stopping (hsession : recordingId ∈ process.sessions)
    (stopped drained : Except Error Unit) :
    (stopping recordingId stopped drained).Moves process (finishing recordingId .start)
      { process with sessions := process.sessions.filter (fun other => other ≠ recordingId) } := by
  refine ⟨.of_eq rfl, nofun, fun other hother => ?_, fun other hopen => ?_⟩
  · rcases hother with hmem | heq
    · exact .inl (List.mem_filter.mp hmem).1
    · obtain rfl : recordingId = other := Option.some.inj heq
      exact .inl hsession
  · by_cases hother : other = recordingId
    · exact .inr (.inl (congrArg some hother.symm))
    · by_cases hmem : other ∈ process.sessions
      · exact .inl (List.mem_filter.mpr ⟨hmem, by simpa using hother⟩)
      · exact .inr (.inr ⟨hopen, hmem, by simp [holds]⟩)

/-- `fail_recording` of the call's own recording: it is open no more. -/
theorem moves_failing {reason : String} {e : Error}
    (hrow : (process.store.recordings.find? recordingId).isSome) :
    (failing recordingId reason e).Moves process (.raised (some recordingId) e)
      { process with
        store := process.store.setRecording recordingId (RecordingRow.failed reason)
          fun _ => rfl } := by
  obtain ⟨row, hfind⟩ := Option.isSome_iff_exists.mp hrow
  have hid : row.recordingId = recordingId := (Table.find?_eq_some_iff.mp hfind).2
  refine .ends rfl rfl rfl (fun other e' heq => ?_) ⟨row.failed reason, ?_, ?_⟩
    fun other hother => ?_
  · cases heq
    rfl
  · -- the row is found again, failed
    refine (Store.find?_setRecording (RecordingRow.failed reason) (fun _ => rfl) recordingId
      recordingId process.store).trans ?_
    rw [hfind, Option.map_some, if_pos hid]
  · simp [RecordingRow.failed]
  · exact Store.find?_setRecording_of_ne (RecordingRow.failed reason) (fun _ => rfl) hother
      process.store

/-- `start_recording`: the call takes on the recording it opens, or the insert is refused. -/
theorem moves_opening {row : RecordingRow} {opened : Caller} (hfirst : c.holds = none)
    (hholds : opened.holds = some row.recordingId)
    (h : (match process.store.addRecording row with
      | .ok ((), s) => some (opened, { process with store := s })
      | .error e => some (.raised none e, process)) = some (c', process')) :
    c.Moves process c' process' := by
  cases hadd : process.store.addRecording row with
  | error e =>
    rw [hadd] at h
    cases h
    exact .quiet rfl rfl hfirst.symm fun _ _ h => by cases h
  | ok result =>
    rw [hadd] at h
    cases h
    exact .opens hadd hfirst hholds

/-- `stop_session` up to `finish_recording`, when nothing on the way raises. -/
theorem moves_next_stopping {stopped drained : Except Error Unit}
    (hguarded : (stopping recordingId stopped drained).unguardedStep process = false)
    (h : (stopping recordingId stopped drained).next order process = some (c', process')) :
    (stopping recordingId stopped drained).Moves process c' process' := by
  cases h
  by_cases hsession : recordingId ∈ process.sessions
  · obtain ⟨hstopped, hdrained⟩ : stopped = .ok () ∧ drained = .ok () := by
      rw [unguardedStep, decide_eq_true hsession] at hguarded
      cases stopped <;> cases drained <;> first | exact ⟨rfl, rfl⟩ | cases hguarded
    rw [if_pos hsession, hstopped, hdrained]
    exact moves_stopping hsession _ _
  · -- there is no such session, and none is taken out
    rw [if_neg hsession]
    refine .quiet rfl ?_ rfl fun _ _ h => by cases h
    exact List.filter_eq_self.mpr fun other hmem => by
      simpa using fun heq : other = recordingId => hsession (heq ▸ hmem)

/-- A step that does not raise unguarded. -/
theorem moves_next (hrow : ∀ recordingId, c.holds = some recordingId →
      (process.store.recordings.find? recordingId).isSome)
    (hguarded : c.unguardedStep process = false)
    (h : c.next order process = some (c', process')) : c.Moves process c' process' := by
  cases c with
  | starting pluginName project title hex upstream plugin =>
    rw [next] at h
    exact moves_opening rfl (holds_opening _) h
  | registering recordingId =>
    cases h
    exact moves_registering
  | stopping recordingId stopped drained =>
    exact moves_next_stopping hguarded h
  | capturing project title pluginName hex plugin =>
    rw [next] at h
    exact moves_opening rfl (holds_trying _) h
  | pumping recordingId event events stopped =>
    rw [next] at h
    -- storing the event at hand leaves the recordings alone, and so does failing to
    cases hadd : process.store.addEvents (redactedRows [event] []) with
    | error e =>
      rw [hadd] at h
      cases h
      exact .quiet rfl rfl rfl nofun
    | ok result =>
      rw [hadd] at h
      cases h
      exact .quiet (Store.addEvents_eq_ok hadd).2.1 rfl (holds_pumped stopped events)
        fun other e => ne_raised_of_holds (holds_pumped stopped events) _ e
  | failing recordingId reason e =>
    cases h
    exact moves_failing (hrow recordingId rfl)
  | finishing recordingId finisher =>
    obtain ⟨⟨f, process₁⟩, hstep, heq⟩ := Option.map_eq_some_iff.mp h
    cases heq
    exact moves_finishing (hrow recordingId rfl) hguarded hstep
  | appending recordingId appender =>
    obtain ⟨⟨a, s⟩, hstep, heq⟩ := Option.map_eq_some_iff.mp h
    cases heq
    refine .quiet ?_ rfl rfl nofun
    -- an appender adds events, or leaves the store as it is
    rcases Appender.step_cases hstep with ⟨hs, -⟩ | ⟨u, hadd, -⟩
    · exact congrArg Store.recordings hs
    · exact (Store.addEvents_eq_ok hadd).2.1
  | returned => cases h
  | raised other e => cases h

/-- A failure that is not unguarded. -/
theorem moves_failed {e : Error} (hguarded : c.unguardedFailure = false)
    (h : c.failed e = some c') : c.Moves process c' process := by
  cases c with
  | starting pluginName project title hex upstream plugin =>
    cases h
    exact .quiet rfl rfl rfl nofun
  | capturing project title pluginName hex plugin =>
    cases h
    exact .quiet rfl rfl rfl nofun
  | pumping recordingId event events stopped =>
    cases h
    exact .quiet rfl rfl rfl nofun
  -- nobody fails the recording when `fail_recording` or `finish_recording` raises
  | failing recordingId reason e => cases hguarded
  | finishing recordingId finisher => cases hguarded
  | appending recordingId appender =>
    obtain ⟨appender', rfl⟩ : ∃ appender', c' = .appending recordingId appender' := by
      cases appender with
      | ingest batch => exact ⟨_, (Option.some.inj h).symm⟩
      | ingestOpen event batch => exact ⟨_, (Option.some.inj h).symm⟩
      | pump events =>
        cases events with
        | nil => cases h
        | cons event events => exact ⟨_, (Option.some.inj h).symm⟩
      | ingested batch => cases h
      | raised e => cases h
    exact .quiet rfl rfl rfl nofun
  | _ => cases h

end Caller

/-! ### Whole runs -/

/-- The invariant of the runs without an unguarded turn. -/
structure Callers.Inv (s₀ : Store) (p : Callers) : Prop where
  ended : ∀ recordingId e, .raised (some recordingId) e ∈ p.tasks →
    p.state.store.Ended recordingId
  rows : ∀ recordingId,
    (recordingId ∈ p.state.sessions ∨ ∃ c ∈ p.tasks, c.holds = some recordingId) →
      (p.state.store.recordings.find? recordingId).isSome
  covered : ∀ recordingId, p.state.store.Open recordingId →
    recordingId ∈ p.state.sessions ∨ (∃ c ∈ p.tasks, c.holds = some recordingId) ∨
      s₀.Open recordingId

variable {s₀ : Store} {p p' : Callers} {i : ℕ}

/-- A move of one caller keeps the invariant, by what `Moves` says of it. -/
theorem Callers.Inv.move (hp : p.Inv s₀) (hget : p.tasks[i]? = some c)
    (hmoves : c.Moves p.state c' process') :
    Callers.Inv s₀ { state := process', tasks := p.tasks.set i c' } where
  ended recordingId e hmem := by
    rcases List.mem_or_eq_of_mem_set hmem with hmem | heq
    · exact (hp.ended recordingId e hmem).onward hmoves.onward
    · exact hmoves.raised recordingId e heq.symm
  rows recordingId hheld := by
    have hbefore : recordingId ∈ p.state.sessions ∨ (∃ c ∈ p.tasks, c.holds = some recordingId) ∨
        (process'.store.recordings.find? recordingId).isSome := by
      have hmem : c ∈ p.tasks := List.mem_of_getElem? hget
      have hmoved := fun h => (hmoves.rows recordingId h).imp_right (Or.imp_left fun h =>
        (⟨c, hmem, h⟩ : ∃ c ∈ p.tasks, c.holds = some recordingId))
      rcases hheld with hsession | ⟨d, hd, hheld⟩
      · exact hmoved (.inl hsession)
      · rcases List.mem_or_eq_of_mem_set hd with hd | rfl
        · exact .inr (.inl ⟨d, hd, hheld⟩)
        · exact hmoved (.inr hheld)
    rcases hbefore with hsession | hcall | hrow
    · exact hmoves.onward.isSome (hp.rows recordingId (.inl hsession))
    · exact hmoves.onward.isSome (hp.rows recordingId (.inr hcall))
    · exact hrow
  covered recordingId hopen := by
    have hplace : i < p.tasks.length := (List.getElem?_eq_some_iff.mp hget).1
    rcases hmoves.covered recordingId hopen with hsession | hheld | ⟨hopen, hsession, hnot⟩
    · exact .inl hsession
    · exact .inr (.inl ⟨c', List.mem_set hplace c', hheld⟩)
    · -- another call holds the recording, and has not moved
      rcases hp.covered recordingId hopen with hsession' | ⟨d, hd, hheld⟩ | hbefore
      · exact absurd hsession' hsession
      · refine .inr (.inl ⟨d, Pool.mem_set_of_ne hget hd ?_ c', hheld⟩)
        rintro rfl
        exact hnot hheld
      · exact .inr (.inr hbefore)

/-- A guarded step keeps the invariant. -/
theorem Callers.Inv.step {t : CallTurn} (hp : p.Inv s₀) (hguarded : p.unguarded t = false)
    (h : p.step order t = some p') : p'.Inv s₀ := by
  cases t with
  | step i =>
    obtain ⟨c, c', process', hget, hnext, rfl⟩ := Pool.step_eq_some_iff.mp h
    have hmem : c ∈ p.tasks := List.mem_of_getElem? hget
    rw [Callers.unguarded, hget, Option.any_some] at hguarded
    exact hp.move hget (Caller.moves_next
      (fun recordingId hheld => hp.rows recordingId (.inr ⟨c, hmem, hheld⟩)) hguarded hnext)
  | fail i e =>
    rw [Callers.step] at h
    obtain ⟨c, c', process', hget, hfailed, rfl⟩ := Pool.step_eq_some_iff.mp h
    obtain ⟨c'', hc, heq⟩ := Option.map_eq_some_iff.mp hfailed
    cases heq
    rw [Callers.unguarded, hget, Option.any_some] at hguarded
    exact hp.move hget (Caller.moves_failed hguarded hc)

/-- It holds at the start, where no call has begun. -/
theorem Callers.Starting.inv (hp : p.Starting) : p.Inv p.state.store := by
  refine ⟨fun recordingId e hmem => absurd (hp.first _ hmem) Bool.false_ne_true, ?_,
    fun _ hopen => .inr (.inr hopen)⟩
  rintro recordingId (hsession | ⟨c, hc, hheld⟩)
  · rw [hp.sessions] at hsession
    cases hsession
  · rw [Caller.holds_of_isFirst (hp.first c hc)] at hheld
    cases hheld

/-- It says that no recording is left open by a call that raised. -/
theorem Callers.Inv.unorphaned (hp : p.Inv s₀) : p.Unorphaned s₀ where
  raised recordingId e hmem := .inl (hp.ended recordingId e hmem)
  idle hidle recordingId hopen := by
    rcases hp.covered recordingId hopen with hsession | ⟨c, hc, hheld⟩ | hbefore
    · exact .inl hsession
    · rw [hidle c hc] at hheld
      cases hheld
    · exact .inr hbefore

end Steps

/-- **No capture is orphaned** in a run in which nothing raises in `stop_session` behind the
removal of the session, in `finish_recording` or in `fail_recording`. -/
theorem unorphaned_of_guarded {order : RowOrder} {p p' : Callers} {turns : List CallTurn}
    (hstart : p.Starting)
    (hguarded : Machine.Along (Callers.step order) (fun p t => p.unguarded t = false) p turns)
    (hrun : Machine.run (Callers.step order) p turns = some p') :
    p'.Unorphaned p.state.store :=
  (Machine.invariant (fun _ _ _ hp hguarded h => Callers.Inv.step hp hguarded h) hstart.inv
    hguarded hrun).unorphaned

/-- A live capture of which the session is stopped. -/
def stoppedCapture : Callers where
  state := { store := .empty, sessions := [], commits := [] }
  tasks := [.starting "mock_capture" "" "" "a" none fun _ => { events := [] },
    .stopping "rec_a" (.ok ()) (.ok ())]

theorem starting_stoppedCapture : stoppedCapture.Starting where
  sessions := rfl
  first c hc := by
    have hcases : c = stoppedCapture.tasks[0] ∨ c = stoppedCapture.tasks[1] := by
      simpa [stoppedCapture] using hc
    rcases hcases with rfl | rfl <;> rfl

/-- It is opened, registered, taken out and finished. -/
theorem unorphaned_of_guarded_stopped :
    ∃ p', Machine.run (Callers.step .bySequence) stoppedCapture
        [.step 0, .step 0, .step 1, .step 1, .step 1, .step 1, .step 1] = some p' ∧
      p'.Unorphaned .empty := by
  obtain ⟨p', hrun⟩ := Option.isSome_iff_exists.mp
    (by decide : (Machine.run (Callers.step .bySequence) stoppedCapture
      [.step 0, .step 0, .step 1, .step 1, .step 1, .step 1, .step 1]).isSome)
  exact ⟨p', hrun, unorphaned_of_guarded starting_stoppedCapture (by decide) hrun⟩

/-- The snapshot cannot be written while the session is stopped: the capture stays in RECORDING,
and no session is left to stop. -/
theorem not_unorphaned_blob :
    ¬∀ (p p' : Callers) (turns : List CallTurn), p.Starting →
      Machine.run (Callers.step .bySequence) p turns = some p' → p'.Unorphaned p.state.store := by
  intro h
  have hrun : ∃ process, Machine.run (Callers.step .bySequence) stoppedCapture
      [.step 0, .step 0, .step 1, .step 1, .step 1, .fail 1 (.pluginError "No space left")] =
        some ⟨process, [.returned, .raised (some "rec_a") (.pluginError "No space left")]⟩ ∧
      process.sessions = [] ∧ (process.store.recordings.find? "rec_a").map RecordingRow.status =
        some .recording := ⟨_, rfl, rfl, rfl⟩
  obtain ⟨process, hrun, hsessions, hstatus⟩ := hrun
  rcases (h _ _ _ starting_stoppedCapture hrun).raised "rec_a" (.pluginError "No space left")
    (by simp) with ⟨row, hrow, hover⟩ | hmem
  · rw [hrow] at hstatus
    exact hover (Option.some.inj hstatus)
  · rw [hsessions] at hmem
    cases hmem

end InfraReplay
