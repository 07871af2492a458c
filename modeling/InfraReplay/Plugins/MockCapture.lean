import InfraReplay.Recording.Service

/-!
# The canonical checkout

The event stream that the mock target answers with. The table of its steps is an argument; how
`_Stream.add` makes an event of a step, under which ids, numbers and clock readings, is here.
-/

namespace InfraReplay

open Python

/-- `_BASE_NS`. -/
def baseNs : ℤ := 1787047200000000000

/-- What `build` says of one event. -/
structure StreamStep where
  eventType : EventType
  payload : Payload
  /-- The place of the parent in the stream. -/
  parent : Option ℕ := none
  gapNs : ℤ
  durNs : ℤ

/-- `_Stream`. -/
structure Stream where
  recordingId : String
  correlationId : String
  traceId : String
  sequence : ℤ := 0
  nowNs : ℤ := baseNs
  events : List Event := []

/-- `add`, with the ids it makes up. -/
def Stream.add (stream : Stream) (step : StreamStep) (eventHex spanId : String) : Stream :=
  { stream with
    sequence := stream.sequence + 1
    nowNs := stream.nowNs + step.gapNs + step.durNs
    events := stream.events ++
      [{ recordingId := stream.recordingId
         eventId := newId "evt" eventHex
         parentEventId := step.parent.bind fun i => stream.events[i]?.map Event.eventId
         sequence := stream.sequence
         -- the clock is read after the gap and before the duration
         timestampNs := stream.nowNs + step.gapNs
         durationNs := step.durNs
         eventType := step.eventType
         service := "demo_shop"
         correlationId := stream.correlationId
         traceId := some stream.traceId
         spanId := some spanId
         payload := step.payload }] }

/-- `build`, for a table of steps, each with the ids that are made up for it. -/
def build (recordingId correlationHex traceId : String)
    (steps : List (StreamStep × String × String)) : List Event :=
  (steps.foldl (fun stream step => stream.add step.1 step.2.1 step.2.2)
    { recordingId := recordingId
      correlationId := newId "corr" correlationHex
      traceId := traceId : Stream }).events

/-- The events are made for the recording they are built for. -/
theorem recordingId_of_mem_build {recordingId correlationHex traceId : String}
    {steps : List (StreamStep × String × String)} {e : Event}
    (he : e ∈ build recordingId correlationHex traceId steps) : e.recordingId = recordingId := by
  have hrun : ∀ (steps : List (StreamStep × String × String)) (stream : Stream),
      stream.recordingId = recordingId → (∀ e ∈ stream.events, e.recordingId = recordingId) →
      ∀ e ∈ (steps.foldl (fun stream step => stream.add step.1 step.2.1 step.2.2) stream).events,
        e.recordingId = recordingId := by
    intro steps
    induction steps with
    | nil => exact fun stream _ hevents => hevents
    | cons step steps ih =>
      intro stream hid hevents
      refine ih _ hid fun e he => ?_
      rcases List.mem_append.mp he with he | he
      · exact hevents e he
      · rw [List.mem_singleton.mp he]
        exact hid
  exact hrun steps _ rfl (fun e he => absurd he List.not_mem_nil) e he

end InfraReplay
