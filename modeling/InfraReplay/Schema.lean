import InfraReplay.Python.JsonMode

/-!
# The schema every component agrees on

The models of `infrareplay.schema`: events, recordings and comparison results. A creation time is
not modelled (no modelled function reads it), everything else a model carries is here. Integers
are unbounded, as in Python.
-/

namespace InfraReplay

open Python

/-- The four event kinds. -/
inductive EventType where
  | httpRequest
  | httpResponse
  | pgQuery
  | pgResult
  deriving DecidableEq

/-- The string an event kind is stored as. -/
def EventType.value : EventType → String
  | .httpRequest => "http.request"
  | .httpResponse => "http.response"
  | .pgQuery => "postgres.query"
  | .pgResult => "postgres.result"

/-- Different kinds are stored as different strings. -/
theorem EventType.value_injective : Function.Injective EventType.value := by
  intro a b h
  cases a <;> cases b <;> first | rfl | exact absurd h (by decide)

@[simp]
theorem EventType.value_inj {a b : EventType} : a.value = b.value ↔ a = b :=
  value_injective.eq_iff

/-- `SCHEMA_VERSION`. -/
def schemaVersion : ℤ := 1

/-- One captured or replayed step. -/
structure Event where
  schemaVersion : ℤ := 1
  recordingId : String
  eventId : String
  parentEventId : Option String := none
  /-- Position within the recording. -/
  sequence : ℤ
  timestampNs : ℤ
  durationNs : ℤ
  eventType : EventType
  service : String
  /-- Ties an HTTP request to the database events it triggered. -/
  correlationId : String
  traceId : Option String := none
  spanId : Option String := none
  payload : Payload := .empty

/-- An optional string as a JSON value. -/
def optionalStr (s : Option String) : Value := (s.map Value.str).getD .none

/-- `event.model_dump(mode="json")`. -/
def Event.dump (e : Event) : Dict String Value :=
  [("schema_version", .int e.schemaVersion), ("recording_id", .str e.recordingId),
    ("event_id", .str e.eventId), ("parent_event_id", optionalStr e.parentEventId),
    ("sequence", .int e.sequence), ("timestamp_ns", .int e.timestampNs),
    ("duration_ns", .int e.durationNs), ("event_type", .str e.eventType.value),
    ("service", .str e.service), ("correlation_id", .str e.correlationId),
    ("trace_id", optionalStr e.traceId), ("span_id", optionalStr e.spanId),
    ("payload", .dict e.payload.jsonMode.items)]

/-- The event that a dump is of: what is no JSON number is lost. -/
def Event.jsonMode (e : Event) : Event := { e with payload := e.payload.jsonMode }

theorem Event.jsonMode_eq_self_iff {e : Event} : e.jsonMode = e ↔ e.payload.isFinite = true := by
  rw [← Payload.jsonMode_eq_self_iff]
  exact ⟨congrArg Event.payload, fun h => by rw [Event.jsonMode, h]⟩

/-- An event given by the fields that ordering and pairing look at. -/
def Event.brief (eventType : EventType) (eventId correlationId : String) (sequence : ℤ)
    (payload : Payload := .empty) : Event where
  recordingId := "rec_1"
  eventId := eventId
  sequence := sequence
  timestampNs := sequence
  durationNs := 1
  eventType := eventType
  service := "demo_shop"
  correlationId := correlationId
  payload := payload

/-- Where a recording comes from. -/
inductive RecordingKind where
  | capture
  | replay
  deriving DecidableEq

/-- The stored form of a kind. -/
def RecordingKind.value : RecordingKind → String
  | .capture => "capture"
  | .replay => "replay"

/-- The lifecycle of a recording. -/
inductive RecordingStatus where
  | creating
  | recording
  | completed
  | failed
  deriving DecidableEq

/-- The stored form of a status. -/
def RecordingStatus.value : RecordingStatus → String
  | .creating => "creating"
  | .recording => "recording"
  | .completed => "completed"
  | .failed => "failed"

/-- A recording with its events. -/
structure Recording where
  schemaVersion : ℤ := 1
  recordingId : String
  project : String := "default"
  kind : RecordingKind := .capture
  status : RecordingStatus := .creating
  title : String := ""
  capturePlugin : String := ""
  /-- Set only for a replay. -/
  sourceRecordingId : Option String := none
  target : Option String := none
  events : List Event := []

/-- `recording.model_dump(mode="json", exclude={"events"})`. -/
def Recording.dump (r : Recording) : Dict String Value :=
  [("schema_version", .int r.schemaVersion), ("recording_id", .str r.recordingId),
    ("project", .str r.project), ("kind", .str r.kind.value), ("status", .str r.status.value),
    ("title", .str r.title), ("capture_plugin", .str r.capturePlugin),
    ("source_recording_id", optionalStr r.sourceRecordingId), ("target", optionalStr r.target)]

/-- The recording that its dump and those of its events are of. -/
def Recording.jsonMode (r : Recording) : Recording :=
  { r with events := r.events.map Event.jsonMode }

/-- A recording without NaN and infinities is what its dump is of. -/
theorem Recording.jsonMode_eq_self {r : Recording}
    (h : ∀ e ∈ r.events, e.payload.isFinite = true) : r.jsonMode = r := by
  have hevents : r.events.map Event.jsonMode = r.events :=
    (List.map_congr_left fun e he => Event.jsonMode_eq_self_iff.mpr (h e he)).trans
      (List.map_id' _)
  rw [Recording.jsonMode, hevents]

/-- The verdict on one event or event pair. -/
inductive ComparisonCategory where
  | match
  | different
  /-- In the original, absent from the replay. -/
  | missing
  /-- In the replay, absent from the original. -/
  | new
  /-- The replay raised. -/
  | error
  deriving DecidableEq

/-- The stored form of a verdict. -/
def ComparisonCategory.value : ComparisonCategory → String
  | .match => "MATCH"
  | .different => "DIFFERENT"
  | .missing => "MISSING"
  | .new => "NEW"
  | .error => "ERROR"

/-- One row of a comparison. Either side is absent in a `MISSING` or `NEW` row. -/
structure ComparisonResult where
  replayRecordingId : String
  originalEventId : Option String := none
  replayedEventId : Option String := none
  eventType : String
  category : ComparisonCategory
  /-- What differs, in the words of the comparator. -/
  diff : Dict String Value := []

end InfraReplay
