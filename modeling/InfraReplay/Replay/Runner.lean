import InfraReplay.Comparison.Accounting
import InfraReplay.Recording.Service
import InfraReplay.Replay.Engine

/-!
# One replay, from the request to the stored comparison

`run_replay` as a task over the store. Its environment is what it does not compute: the ids it
makes up, the order of rows, and what the target answered.
-/

namespace InfraReplay

open Python

/-- `ReplayRun`. -/
structure ReplayRun where
  replayRecordingId : String
  sourceRecordingId : String
  target : String
  eventLinks : Dict String String

/-- What a replay gets from outside. -/
structure ReplayEnv where
  /-- For the id of the replay recording. -/
  hex : String
  supply : Supply
  /-- The events of the mock target for a replay recording. -/
  canonical : String → List Event
  /-- What the live target's client returns for a replay recording and the payloads. -/
  send : String → List Payload → Except Error (List Event)

/-- Raise what a call raised, or go on with its value. -/
def fromResult {α : Type} : Except Error α → Prog Store Error α
  | .ok a => return a
  | .error e => throw e

/-- `except ReplayError as exc: await fail_recording(replay_id, str(exc)); raise`. -/
def failReplay {α : Type} (replayId : String) : Error → Prog Store Error α
  | .replayError message => do
    failRecording replayId message
    throw (.replayError message)
  | e => throw e

/-- The arguments `run_replay` opens the replay recording with. -/
def replayRow (source : Recording) (recordingId target replayId : String) : NewRecording where
  recordingId := some replayId
  project := source.project
  kind := .replay
  title := "Replay of " ++ (if source.title = "" then recordingId else source.title)
  target := some target
  sourceRecordingId := some recordingId

/-- `run_replay`, from the point where the source is read. -/
def replaySource (cfg : Config) (order : RowOrder) (env : ReplayEnv) (options : ReplayOptions)
    (recordingId : String) (source : Recording) :
    Prog Store Error (ReplayRun × Dict String ℕ) := do
  let replayId := newId "rpl" env.hex
  let _ ← startRecording (replayRow source recordingId options.target replayId) env.hex
  let replayed ← tryCatch
    (fromResult
      (replayRecording env.supply (env.canonical replayId) (env.send replayId) options source))
    (failReplay replayId)
  -- the replayed events are stored and correlated like those of a capture
  let _ ← appendEvents replayId replayed
  let run ← finishRecording order replayId
  let links := linkStreams source.events run.events
  linkReplayEvents replayId links
  let results := compareRun (comparators cfg) source run.events links
  saveComparison replayId results
  return (
    { replayRecordingId := replayId
      sourceRecordingId := recordingId
      target := options.target
      eventLinks := links },
    summarize results)

/-- `run_replay`. -/
def runReplay (cfg : Config) (order : RowOrder) (env : ReplayEnv) (options : ReplayOptions)
    (recordingId : String) : Prog Store Error (ReplayRun × Dict String ℕ) := do
  fromResult (ensureSafe options.target options.safety)
  match ← getRecording order recordingId with
  | none => throw (.replayError ("recording " ++ quoted recordingId ++ " not found"))
  | some source => replaySource cfg order env options recordingId source

end InfraReplay
