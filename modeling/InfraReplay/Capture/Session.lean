import InfraReplay.Recording.Service

/-!
# Capture sessions and the ingest door

A session starts a recording, pumps what its plugin yields into it and finishes it; `ingestEvents`
is where events of another process come in. Which sessions are live is not modelled: stopping an
unknown one touches no recording.
-/

namespace InfraReplay

open Python

/-- `CaptureSession.open`, up to the start of the pump. -/
def openSession (recordingId : String) (started : Except Error Unit) : Prog Store Error Unit :=
  tryCatch (pluginResult started) fun exc => do
    failRecording recordingId exc.text
    throw (.captureError exc.text)

/-- `start_session`. -/
def startSession (pluginName project title hex : String) (upstream : Option String)
    (plugin : String → PluginRun) : Prog Store Error String := do
  let recordingId ← startRecording
    { project := project
      title := if title = "" then pluginName ++ " capture" else title
      capturePlugin := pluginName
      target := upstream } hex
  openSession recordingId (plugin recordingId).started
  return recordingId

/-- `CaptureSession.close`, once the pump has drained the plugin. -/
def closeSession (order : RowOrder) (recordingId : String) (stopped : Except Error Unit) :
    Prog Store Error Recording := do
  pluginResult stopped
  finishRecording order recordingId

/-- `e.model_copy(update={"recording_id": recording_id})` for each event. -/
def stamped (recordingId : String) (events : List Event) : List Event :=
  events.map fun e => { e with recordingId := recordingId }

/-- The error `ingest_events` raises for a status, if any. -/
def ingestRefusal (recordingId : String) : Option RecordingStatus → Option Error
  | none => some (.captureError ("recording " ++ quoted recordingId ++ " not found"))
  | some .recording => none
  | some status =>
    some (.captureError
      ("recording " ++ quoted recordingId ++ " is " ++ status.value ++ ", not open"))

/-- `ingest_events`: the status check and the append are two transactions. -/
def ingestEvents (recordingId : String) (events : List Event) : Prog Store Error ℕ := do
  match ingestRefusal recordingId (← getStatus recordingId) with
  | some e => throw e
  | none =>
    let _ ← appendEvents recordingId (stamped recordingId events)
    return (stamped recordingId events).length

end InfraReplay
