import InfraReplay.Api.Terminal
import InfraReplay.Api.Validate
import InfraReplay.Common.Phases
import InfraReplay.Plugins.MockStream
import InfraReplay.Plugins.Registry

/-!
# The routes of the API

`create_app` wraps the calls: each route translates some exceptions into an `HTTPException` and lets
the others through, which are answered 500. Requests run in one process, so they take turns at
every transaction, and any transaction of theirs may fail with an exception of the database.
`IsRequest` collects the requests; what they leave behind is the subject of `Api.Refusals`.
-/

namespace InfraReplay

open Python

/-! ### Answers -/

/-- What a route hands back: the response, or the status and the detail of an `HTTPException`. -/
inductive Answer (α : Type) where
  | ok (response : α)
  | httpException (status : ℕ) (detail : String)

/-- What the client is told when there is no response. -/
def Answer.refusal {α : Type} : Answer α → Option (ℕ × String)
  | .ok _ => none
  | .httpException status detail => some (status, detail)

/-- `_NOT_FOUND`. -/
def notFound : ℕ := 404

/-- `_BAD_REQUEST`. -/
def badRequest : ℕ := 400

/-- The exceptions that some route translates. -/
def Error.isApi : Error → Bool
  | .captureError _ | .replayError _ | .bundleError _ => true
  | _ => false

def Error.isCaptureError : Error → Bool
  | .captureError _ => true
  | _ => false

def Error.isReplayError : Error → Bool
  | .replayError _ => true
  | _ => false

def Error.isBundleError : Error → Bool
  | .bundleError _ => true
  | _ => false

namespace Process

variable {α β : Type}

/-- `except ... as exc: raise HTTPException(_BAD_REQUEST, str(exc))`. -/
def translating (caught : Error → Bool) (p : Prog Process Error α) :
    Prog Process Error (Answer α) :=
  tryCatch (p >>= fun response => return .ok response) fun exc =>
    if caught exc then return .httpException badRequest exc.text else throw exc

/-- `if found is None: raise HTTPException(_NOT_FOUND, ...)`. -/
def found (detail : String) : Option α → Answer α
  | none => .httpException notFound detail
  | some response => .ok response

/-! ### The routes -/

/-- `CaptureResponse`. -/
structure CaptureResponse where
  recordingId : String
  plugin : String
  title : String
  target : String := ""
  listenPort : ℕ := 0

/-- `start_capture`, where `port` is what the started plugin has as its `port`. -/
def startCapture (registry : PluginRegistry (String → PluginRun))
    (pluginName project title hex : String) (upstream : Option String) (port : ℕ) :
    Prog Process Error (Answer CaptureResponse) :=
  match registry.capture pluginName with
  | .error message => return .httpException badRequest message
  | .ok cls => translating Error.isCaptureError do
    let recordingId ← startSession pluginName project title hex upstream cls.body
    return {
      recordingId := recordingId
      plugin := pluginName
      title := if title = "" then pluginName ++ " capture" else title
      target := upstream.getD ""
      listenPort := port }

/-- `stop_capture`. -/
def stopCapture (order : RowOrder) (recordingId : String) (stopped drained : Except Error Unit) :
    Prog Process Error (Answer Recording) :=
  translating Error.isCaptureError (stopSession order recordingId stopped drained)

/-- `ingest`. -/
def ingest (recordingId : String) (events : List Event) : Prog Process Error (Answer ℕ) :=
  translating Error.isCaptureError (onStore (ingestEvents recordingId events))

/-- `recording`. -/
def recording (order : RowOrder) (recordingId : String) :
    Prog Process Error (Answer Recording) := do
  let got ← onStore (getRecording order recordingId)
  return found ("recording " ++ recordingId ++ " not found") got

/-- `export`. -/
def exportBundle (order : RowOrder) (exportedAt recordingId : String) :
    Prog Process Error (Answer (Dict String Value)) := do
  let bundle ← onStore (exportRecording order exportedAt recordingId)
  return found ("recording " ++ recordingId ++ " not found") bundle

/-- `import_bundle`. -/
def importBundle (models : Models) (order : RowOrder) (hex recordingHex : String)
    (eventHexes : List String) (doc : Dict String Value) : Prog Process Error (Answer Recording) :=
  translating Error.isBundleError (importRecording models order hex recordingHex eventHexes doc)

/-- `validate_bundle`. -/
def validate (models : Models) (doc : Dict String Value) : Prog Process Error (Answer Verdict) :=
  match validateBundle models doc with
  | .ok verdict => return .ok verdict
  | .error e => throw e

/-- `ReplayRequest`. -/
structure ReplayRequest where
  recordingId : String
  target : String := "mock"
  allowUnsafe : Bool := false
  substitutions : Option (Dict String String) := none
  autoSubstitute : Bool := false
  concurrency : ℤ := 1

/-- The keyword arguments `create_replay` passes on. -/
def ReplayRequest.options (req : ReplayRequest) : ReplayOptions where
  target := req.target
  safety := if req.allowUnsafe then .unsafe_ else .safe
  substitutions := req.substitutions.getD []
  auto := if req.autoSubstitute then .freshIds else .off
  concurrency := req.concurrency

/-- `ReplayResponse`. -/
structure ReplayResponse where
  replayRecordingId : String
  sourceRecordingId : String
  target : String
  summary : Dict String ℕ

/-- `create_replay`. -/
def createReplay (cfg : Config) (order : RowOrder) (env : ReplayEnv) (req : ReplayRequest) :
    Prog Process Error (Answer ReplayResponse) :=
  translating Error.isReplayError do
    let (run, summary) ← runReplay cfg order env req.options req.recordingId
    return {
      replayRecordingId := run.replayRecordingId
      sourceRecordingId := run.sourceRecordingId
      target := run.target
      summary := summary }

/-- `comparison`. -/
def comparison (replayRecordingId : String) :
    Prog Process Error (Answer (List ComparisonResult)) := do
  let results ← onStore (getComparison replayRecordingId)
  return if results = [] then .httpException notFound "no comparison for that replay"
    else .ok results

/-- The loop of `demo.seed`. -/
def seedFrom (order : RowOrder) :
    List ((Scenario × String) × String × StreamIds) → Prog Process Error (List Recording)
  | [] => return []
  | ((scenario, title), hex, ids) :: rest => do
    let recording ← captureRecording order "default" title "mock_capture" hex
      (mockCapture ids scenario.value)
    let recordings ← seedFrom order rest
    return recording :: recordings

/-- `seed`: no exception is translated. -/
def seed (order : RowOrder) (clean buggy : String × StreamIds) :
    Prog Process Error (Answer (List Recording)) := do
  let recordings ← seedFrom order
    [((.clean, "Checkout — clean run"), clean), ((.buggy, "Checkout — payment step fails"), buggy)]
  return .ok recordings

/-- A request. -/
inductive Request : {α : Type} → Prog Process Error (Answer α) → Prop
  | startCapture (registry : PluginRegistry (String → PluginRun))
      (pluginName project title hex : String) (upstream : Option String) (port : ℕ) :
      Request (startCapture registry pluginName project title hex upstream port)
  /-- No plugin raises a `CaptureError` of its own while it stops. -/
  | stopCapture (order : RowOrder) (recordingId : String) (stopped drained : Except Error Unit)
      (hstopped : ∀ e, stopped = .error e → e.isCaptureError = false)
      (hdrained : ∀ e, drained = .error e → e.isCaptureError = false) :
      Request (stopCapture order recordingId stopped drained)
  | ingest (recordingId : String) (events : List Event) : Request (ingest recordingId events)
  | recording (order : RowOrder) (recordingId : String) : Request (recording order recordingId)
  | exportBundle (order : RowOrder) (exportedAt recordingId : String) :
      Request (exportBundle order exportedAt recordingId)
  | importBundle (models : Models) (order : RowOrder) (hex recordingHex : String)
      (eventHexes : List String) (doc : Dict String Value) :
      Request (importBundle models order hex recordingHex eventHexes doc)
  | validate (models : Models) (doc : Dict String Value) : Request (validate models doc)
  | createReplay (cfg : Config) (order : RowOrder) (env : ReplayEnv) (req : ReplayRequest) :
      Request (createReplay cfg order env req)
  | comparison (replayRecordingId : String) : Request (comparison replayRecordingId)
  | seed (order : RowOrder) (clean buggy : String × StreamIds) : Request (seed order clean buggy)

/-- A request whose client looks at the refusal only. -/
inductive IsRequest : Prog Process Error (Option (ℕ × String)) → Prop
  | intro {α : Type} {p : Prog Process Error (Answer α)} (h : Request p) :
      IsRequest (p >>= fun answer => return answer.refusal)

end Process

end InfraReplay
