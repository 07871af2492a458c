import InfraReplay.Recording.Service
import InfraReplay.Schema.Migrations

/-!
# Bundles: a recording as one self-contained file

`build_bundle`, `parse_bundle` and `rekey`, and the import that uses them. The Pydantic models are
a parameter (`Models`): what the code relies on is that a dumped model validates back, as far as a
dump says what it was (`Models.RoundTrip`). No migration is registered, so an event of an older
version is refused.
-/

namespace InfraReplay

open Python

/-! ### Export -/

/-- `BUNDLE_VERSION`. -/
def bundleVersion : ℤ := 1

/-- `build_bundle`. -/
def buildBundle (exportedAt : String) (recording : Recording) : Dict String Value :=
  [("bundle_version", .int bundleVersion), ("schema_version", .int schemaVersion),
    ("exported_at", .str exportedAt), ("recording", .dict recording.dump),
    ("events", .list (recording.events.map fun e => .dict e.dump))]

/-- `export_recording`. -/
def exportRecording (order : RowOrder) (exportedAt recordingId : String) :
    Prog Store Error (Option (Dict String Value)) := do
  let recording ← getRecording order recordingId
  return recording.map (buildBundle exportedAt)

/-- What is exported after `finish_recording` is the bundle of what it returned. -/
theorem run_exportRecording_of_finish {order order' : RowOrder} {recordingId : String}
    {recording : Recording} {s s' : Store}
    (h : (finishRecording order recordingId).run s = (.ok recording, s')) (exportedAt : String) :
    (exportRecording order' exportedAt recordingId).run s' =
      (.ok (some (buildBundle exportedAt recording)), s') := by
  rw [exportRecording, Prog.run_bind_ok (run_getRecording_of_finish order' h)]
  rfl

/-! ### Validation -/

/-- The constructors of the models: the model, or the text of a `ValidationError`. -/
structure Models where
  validateEvent : Dict String Value → Except String Event
  validateRecording : Dict String Value → List Event → Except String Recording

/-- A dumped model validates back, with null for a NaN and for the infinities. -/
structure Models.RoundTrip (models : Models) : Prop where
  event : ∀ e : Event, models.validateEvent e.dump = .ok e.jsonMode
  recording : ∀ (r : Recording) (events : List Event),
    models.validateRecording r.dump events = .ok { r with events := events }

/-- `_upgraded`. No migration is registered. -/
def upgraded : Value → Except Error (Dict String Value)
  | .dict raw => do
    let version := (Dict.get? raw "schema_version").getD (.int schemaVersion)
    if ← isAtLeast version schemaVersion then return raw
    else Migrations.empty.upgrade raw schemaVersion
  | v => throw (.attributeError ("'" ++ v.typeName ++ "' object has no attribute 'get'"))

/-- What `for x in v` goes through. -/
def elements : Value → Except Error (List Value)
  | .list vs => return vs
  | .str s => return s.toList.map fun c => .str (String.ofList [c])
  | .dict items => return items.map fun p => .str p.1
  | v => throw (.typeError ("'" ++ v.typeName ++ "' object is not iterable"))

/-- `except (KeyError, TypeError, ValidationError) as exc: raise BundleError(str(exc))`. -/
def asBundleError : Error → Error
  | .keyError key => .bundleError (Error.keyError key).text
  | .typeError message => .bundleError message
  | .validationError message => .bundleError message
  | e => e

section Parse

variable (models : Models)

/-- `Event(**_upgraded(raw))`. -/
def parseEvent (raw : Value) : Except Error Event := do
  let items ← upgraded raw
  (models.validateEvent items).mapError .validationError

/-- `[Event(**_upgraded(raw)) for raw in ...]`. -/
def parseEvents : List Value → Except Error (List Event)
  | [] => return []
  | raw :: raws => do
    let event ← parseEvent models raw
    let events ← parseEvents raws
    return event :: events

/-- `Recording(**raw, events=events)`. -/
def parseRecording (raw : Option Value) (events : List Event) : Except Error Recording :=
  match raw with
  | none => throw (.keyError "recording")
  | some (.dict items) =>
    -- `Recording(**raw, events=events)` with `events` among the keys of `raw`
    if (Dict.get? items "events").isSome then
      throw (.typeError ("infrareplay.schema.recording.Recording() got multiple values for " ++
        "keyword argument 'events'"))
    else (models.validateRecording items events).mapError .validationError
  | some v =>
    throw (.typeError ("infrareplay.schema.recording.Recording() argument after ** must be a " ++
      "mapping, not " ++ v.typeName))

/-- The body of the `try` in `parse_bundle`. -/
def parseBody (doc : Dict String Value) : Except Error Recording := do
  let raws ← elements ((doc.get? "events").getD (.list []))
  let events ← parseEvents models raws
  parseRecording models (doc.get? "recording") events

/-- `parse_bundle`. -/
def parseBundle (doc : Dict String Value) : Except Error Recording :=
  match (doc.get? "bundle_version").getD .none with
  -- a version of `None` reads like none at all
  | .none => throw (.bundleError "not an InfraReplay bundle: no bundle_version")
  | version => do
    if ← isGreater version bundleVersion then
      throw (.bundleError ("bundle_version " ++ versionText version ++ " is newer than " ++
        toString bundleVersion))
    else (parseBody models doc).mapError asBundleError

end Parse

/-! ### Import -/

/-- `{e.event_id: f"evt_{...}" for e in recording.events}`. -/
def renamedIds (events : List Event) (eventHexes : List String) : Dict String String :=
  Dict.ofPairs ((events.map Event.eventId).zip (eventHexes.map (newId "evt")))

/-- `event.model_copy(update={...})` of `rekey`. -/
def rekeyEvent (recordingId : String) (renamed : Dict String String) (event : Event) : Event :=
  { event with
    recordingId := recordingId
    eventId := (renamed.get? event.eventId).getD ""
    parentEventId := event.parentEventId.bind renamed.get? }

/-- `rekey`, with one made-up id for every event. -/
def rekey (recordingHex : String) (eventHexes : List String) (recording : Recording) : Recording :=
  { recording with
    recordingId := newId "rec" recordingHex
    events := recording.events.map
      (rekeyEvent (newId "rec" recordingHex) (renamedIds recording.events eventHexes)) }

/-- The arguments `import_recording` opens the recording with. -/
def Recording.asNew (recording : Recording) : NewRecording where
  recordingId := some recording.recordingId
  project := recording.project
  title := recording.title
  kind := recording.kind
  capturePlugin := recording.capturePlugin
  target := recording.target
  sourceRecordingId := recording.sourceRecordingId

/-- `import_recording`, from the point where the bundle is parsed and its ids are settled. -/
def openImported (order : RowOrder) (hex : String) (recording : Recording) :
    Prog Store Error Recording := do
  let _ ← startRecording recording.asNew hex
  let _ ← appendEvents recording.recordingId recording.events
  finishRecording order recording.recordingId

/-- `import_recording`; `hex` is for a recording without an id, the others for a re-keyed one. -/
def importRecording (models : Models) (order : RowOrder) (hex recordingHex : String)
    (eventHexes : List String) (doc : Dict String Value) : Prog Store Error Recording :=
  match parseBundle models doc with
  | .error e => throw e
  | .ok recording => do
    let status ← getStatus recording.recordingId
    -- a recording that exists is imported under fresh ids
    openImported order hex
      (if status.isSome then rekey recordingHex eventHexes recording else recording)

/-! ### Models without coercions -/

/-- The kind of a stored string. -/
def EventType.ofValue? (s : String) : Option EventType :=
  [.httpRequest, .httpResponse, .pgQuery, .pgResult].find? fun t => t.value = s

/-- The status of a stored string. -/
def RecordingStatus.ofValue? (s : String) : Option RecordingStatus :=
  [.creating, .recording, .completed, .failed].find? fun t => t.value = s

/-- The recording kind of a stored string. -/
def RecordingKind.ofValue? (s : String) : Option RecordingKind :=
  [.capture, .replay].find? fun t => t.value = s

/-- A required field read as `read` says. -/
def required {α : Type} (items : Dict String Value) (key : String) (read : Value → Option α) :
    Except String α :=
  match (items.get? key).bind read with
  | some a => .ok a
  | none => .error (key ++ ": invalid or missing")

def asInt : Value → Option ℤ
  | .int i => some i
  | _ => none

def asStr : Value → Option String
  | .str s => some s
  | _ => none

def asOptionalStr : Value → Option (Option String)
  | .none => some none
  | .str s => some (some s)
  | _ => none

def asPayload : Value → Option Payload
  | .dict items => if h : (Value.dict items).wf = true then some ⟨items, h⟩ else none
  | _ => none

/-- Models without coercions. -/
def strictModels : Models where
  validateEvent items := do
    return {
      schemaVersion := ← required items "schema_version" asInt
      recordingId := ← required items "recording_id" asStr
      eventId := ← required items "event_id" asStr
      parentEventId := ← required items "parent_event_id" asOptionalStr
      sequence := ← required items "sequence" asInt
      timestampNs := ← required items "timestamp_ns" asInt
      durationNs := ← required items "duration_ns" asInt
      eventType := ← required items "event_type" fun v => (asStr v).bind EventType.ofValue?
      service := ← required items "service" asStr
      correlationId := ← required items "correlation_id" asStr
      traceId := ← required items "trace_id" asOptionalStr
      spanId := ← required items "span_id" asOptionalStr
      payload := ← required items "payload" asPayload }
  validateRecording items events := do
    return {
      schemaVersion := ← required items "schema_version" asInt
      recordingId := ← required items "recording_id" asStr
      project := ← required items "project" asStr
      kind := ← required items "kind" fun v => (asStr v).bind RecordingKind.ofValue?
      status := ← required items "status" fun v => (asStr v).bind RecordingStatus.ofValue?
      title := ← required items "title" asStr
      capturePlugin := ← required items "capture_plugin" asStr
      sourceRecordingId := ← required items "source_recording_id" asOptionalStr
      target := ← required items "target" asOptionalStr
      events := events }

theorem required_eq_ok {α : Type} {items : Dict String Value} {key : String}
    {read : Value → Option α} {v : Value} {a : α} (hv : items.get? key = some v)
    (ha : read v = some a) : required items key read = .ok a := by
  unfold required
  rw [hv, Option.bind_some, ha]

@[simp]
theorem asOptionalStr_optionalStr (s : Option String) : asOptionalStr (optionalStr s) = some s := by
  cases s <;> rfl

theorem strictModels_roundTrip : strictModels.RoundTrip where
  event e := by
    have htype : EventType.ofValue? e.eventType.value = some e.eventType := by
      cases e.eventType <;> decide
    have hpayload : asPayload (.dict e.payload.jsonMode.items) = some e.payload.jsonMode :=
      dif_pos e.payload.jsonMode.wf
    have hint : ∀ key i, Dict.get? e.dump key = some (.int i) →
        required e.dump key asInt = .ok i := fun _ _ h => required_eq_ok h rfl
    have hstr : ∀ key s, Dict.get? e.dump key = some (.str s) →
        required e.dump key asStr = .ok s := fun _ _ h => required_eq_ok h rfl
    have hopt : ∀ key s, Dict.get? e.dump key = some (optionalStr s) →
        required e.dump key asOptionalStr = .ok s :=
      fun _ s h => required_eq_ok h (asOptionalStr_optionalStr s)
    have hkind : required e.dump "event_type" (fun v => (asStr v).bind EventType.ofValue?) =
        .ok e.eventType := required_eq_ok rfl htype
    have hbody : required e.dump "payload" asPayload = .ok e.payload.jsonMode :=
      required_eq_ok rfl hpayload
    -- each field is found under its key and read back
    unfold strictModels
    dsimp only
    rw [hint "schema_version" _ rfl, hstr "recording_id" _ rfl, hstr "event_id" _ rfl,
      hopt "parent_event_id" _ rfl, hint "sequence" _ rfl, hint "timestamp_ns" _ rfl,
      hint "duration_ns" _ rfl, hkind, hstr "service" _ rfl, hstr "correlation_id" _ rfl,
      hopt "trace_id" _ rfl, hopt "span_id" _ rfl, hbody]
    rfl
  recording r events := by
    have hkind : RecordingKind.ofValue? r.kind.value = some r.kind := by
      cases r.kind <;> decide
    have hstatus : RecordingStatus.ofValue? r.status.value = some r.status := by
      cases r.status <;> decide
    have hstr : ∀ key s, Dict.get? r.dump key = some (.str s) →
        required r.dump key asStr = .ok s := fun _ _ h => required_eq_ok h rfl
    have hopt : ∀ key s, Dict.get? r.dump key = some (optionalStr s) →
        required r.dump key asOptionalStr = .ok s :=
      fun _ s h => required_eq_ok h (asOptionalStr_optionalStr s)
    have hversion : required r.dump "schema_version" asInt = .ok r.schemaVersion :=
      required_eq_ok rfl rfl
    have hkind' : required r.dump "kind" (fun v => (asStr v).bind RecordingKind.ofValue?) =
        .ok r.kind := required_eq_ok rfl hkind
    have hstatus' : required r.dump "status" (fun v => (asStr v).bind RecordingStatus.ofValue?) =
        .ok r.status := required_eq_ok rfl hstatus
    unfold strictModels
    dsimp only
    rw [hversion, hstr "recording_id" _ rfl, hstr "project" _ rfl, hkind', hstatus',
      hstr "title" _ rfl, hstr "capture_plugin" _ rfl, hopt "source_recording_id" _ rfl,
      hopt "target" _ rfl]
    rfl

end InfraReplay
