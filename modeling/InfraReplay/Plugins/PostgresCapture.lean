import InfraReplay.Python.Text
import InfraReplay.Recording.Service

/-!
# SQL capture inside the application

`PostgresCapturePlugin` listens to the statements an application runs. A statement inside a bound
request context puts two events on the plugin's queue, the query and its result; outside a context
it leaves no trace. Readings of the clock and made-up event ids come with the statement.
-/

namespace InfraReplay

open Python

/-- What is bound to the request a statement belongs to. -/
structure CaptureContext where
  recordingId : String
  correlationId : String
  deriving DecidableEq

/-- A statement's parameter: a value that is kept, or another object, given by its `str`. -/
inductive Parameter where
  | none
  | bool (b : Bool)
  | int (i : ℤ)
  | float (f : PyFloat)
  | str (s : String)
  | object (text : String)

/-- What the driver was given. -/
inductive Parameters where
  | absent
  | named (items : Dict String Parameter)
  | positional (items : List Parameter)

/-- The value stored for a parameter. -/
def Parameter.jsonable : Parameter → Json
  | .none => ⟨.none, Value.wf_none⟩
  | .bool b => ⟨.bool b, rfl⟩
  | .int i => .ofInt i
  | .float f => ⟨.float f, rfl⟩
  | .str s => .ofString s
  | .object text => .ofString text

/-- A list of JSON values as a JSON value. -/
def Json.ofList (vs : List Json) : Json where
  val := .list (vs.map Json.val)
  wf := by
    rw [Value.wf_list]
    intro v hv
    obtain ⟨j, -, rfl⟩ := List.mem_map.mp hv
    exact j.wf

/-- `_jsonable`. -/
def Parameters.jsonable : Parameters → Json
  | .absent => Json.ofList []
  | .named items => Json.ofList (items.map fun p => p.2.jsonable)
  | .positional items => Json.ofList (items.map Parameter.jsonable)

/-- A statement that has been executed, as the listener `_after` sees it. -/
structure Statement where
  sql : String
  parameters : Parameters := .absent
  /-- `getattr(cursor, "rowcount", -1)`. -/
  rowcount : ℤ := -1
  /-- `cursor.description is not None`. -/
  returnsRows : Bool := true
  /-- The reading stored by `_before`. -/
  started : ℤ
  /-- The reading of `_after`. -/
  ended : ℤ
  queryHex : String
  resultHex : String

/-- `_result_payload`. -/
def Statement.resultPayload (s : Statement) : Payload :=
  .ofEntries
    [("rows_affected", if s.rowcount = -1 then ⟨.none, Value.wf_none⟩ else .ofInt s.rowcount),
      ("returns_rows", ⟨.bool s.returnsRows, rfl⟩)]
    (by simp)

/-- `{"sql": statement.strip(), "params": _jsonable(parameters)}`. -/
def Statement.queryPayload (s : Statement) : Payload :=
  .ofEntries [("sql", .ofString (strip s.sql)), ("params", s.parameters.jsonable)] (by simp)

/-- A plugin that listens. -/
structure PostgresCapturePlugin where
  service : String
  sequence : ℤ := 0
  queue : List Event := []

namespace PostgresCapturePlugin

variable (plugin : PostgresCapturePlugin) (active : CaptureContext) (s : Statement)

/-- The `postgres.query` event of a statement. -/
def queryEvent : Event where
  recordingId := active.recordingId
  eventId := newId "evt" s.queryHex
  sequence := plugin.sequence
  timestampNs := s.started
  durationNs := s.ended - s.started
  eventType := .pgQuery
  service := plugin.service
  correlationId := active.correlationId
  payload := s.queryPayload

/-- The `postgres.result` event of a statement. -/
def resultEvent : Event where
  recordingId := active.recordingId
  eventId := newId "evt" s.resultHex
  parentEventId := some (newId "evt" s.queryHex)
  sequence := plugin.sequence + 1
  timestampNs := s.ended
  durationNs := 0
  eventType := .pgResult
  service := plugin.service
  correlationId := active.correlationId
  payload := s.resultPayload

/-- The events that `_after` puts on the queue. -/
def captured : Option CaptureContext → List Event
  | none => []
  | some active => [plugin.queryEvent active s, plugin.resultEvent active s]

/-- `_after`. -/
def after (active : Option CaptureContext) : PostgresCapturePlugin :=
  { plugin with
    sequence := plugin.sequence + (plugin.captured s active).length
    queue := plugin.queue ++ plugin.captured s active }

/-- The events of a statement are numbered one after the other. -/
theorem pairwise_sequence_captured (active : Option CaptureContext) :
    (plugin.captured s active).Pairwise fun e e' => e.sequence < e'.sequence := by
  cases active with
  | none => exact .nil
  | some active =>
    have hlt : (plugin.queryEvent active s).sequence < (plugin.resultEvent active s).sequence := by
      show plugin.sequence < plugin.sequence + 1
      omega
    exact List.pairwise_pair.mpr hlt

/-- The events of a statement take the next numbers. -/
theorem sequence_mem_captured {active : Option CaptureContext} {e : Event}
    (h : e ∈ plugin.captured s active) :
    plugin.sequence ≤ e.sequence ∧ e.sequence < (plugin.after s active).sequence := by
  cases active with
  | none => cases h
  | some active =>
    have hafter : (plugin.after s (some active)).sequence = plugin.sequence + 2 := rfl
    have hquery : (plugin.queryEvent active s).sequence = plugin.sequence := rfl
    have hresult : (plugin.resultEvent active s).sequence = plugin.sequence + 1 := rfl
    rcases List.mem_pair.mp h with rfl | rfl
    · omega
    · omega

end PostgresCapturePlugin

end InfraReplay
