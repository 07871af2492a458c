import InfraReplay.Plugins.Fixtures
import InfraReplay.Recording.Workflow

/-!
# What the mock plugin captures

The stream that `_Stream.add` builds of a table of steps is a workflow: numbered, in the order of
time, under one correlation id and with its links (`workflow_build`). So a capture by the mock
plugin is the stream it was built as, redacted (`run_captureStream`).
-/

namespace InfraReplay

open Python

/-- The ids that a stream makes up, by the place of the event. -/
structure StreamIds where
  correlationHex : String
  traceId : String
  eventHex : ℕ → String
  spanId : ℕ → String

/-- Each step with its ids. -/
def StreamIds.label (ids : StreamIds) (steps : List StreamStep) :
    List (StreamStep × String × String) :=
  steps.zipIdx.map fun p => (p.1, ids.eventHex p.2, ids.spanId p.2)

/-- `build`, for a table of steps. -/
def StreamIds.stream (ids : StreamIds) (steps : List StreamStep) (recordingId : String) :
    List Event :=
  build recordingId ids.correlationHex ids.traceId (ids.label steps)

/-- `MockCapturePlugin`, where `scenario` is the entry of its configuration. -/
def mockCapture (ids : StreamIds) (scenario recordingId : String) : PluginRun :=
  match Scenario.ofValue scenario with
  | .ok scenario => { events := ids.stream (Fixtures.steps scenario) recordingId }
  | .error e => { started := .error e, events := [] }

/-- The loop of `seed`, over the scenarios with their titles and what each capture makes up. -/
def seedFrom (order : RowOrder) :
    List ((Scenario × String) × String × StreamIds) → Prog Store Error (List Recording)
  | [] => return []
  | ((scenario, title), hex, ids) :: rest => do
    let recording ← captureRecording order "default" title "mock_capture" hex
      (mockCapture ids scenario.value)
    let recordings ← seedFrom order rest
    return recording :: recordings

/-- `seed`, where each scenario of `_SCENARIOS` is given the ids that its capture makes up. -/
def seed (order : RowOrder) (clean buggy : String × StreamIds) :
    Prog Store Error (List Recording) :=
  seedFrom order
    [((.clean, "Checkout — clean run"), clean), ((.buggy, "Checkout — payment step fails"), buggy)]

/-- A step that stands at `place` goes back to an earlier one, unless it is a request, and takes
its time. -/
structure StreamStep.PlacedAt (step : StreamStep) (place : ℕ) : Prop where
  gapNs : 0 ≤ step.gapNs
  durNs : 0 ≤ step.durNs
  parent : (∃ i, step.parent = some i ∧ i < place) ∨
    (step.parent = none ∧ step.eventType = .httpRequest)

instance (step : StreamStep) (place : ℕ) : Decidable (step.PlacedAt place) :=
  decidable_of_iff (0 ≤ step.gapNs ∧ 0 ≤ step.durNs ∧
      ((step.parent.any fun i => i < place) = true ∨
        (step.parent = none ∧ step.eventType = .httpRequest))) <| by
    simp only [Option.any_eq_true, decide_eq_true_eq]
    exact ⟨fun h => ⟨h.1, h.2.1, h.2.2⟩, fun h => ⟨h.gapNs, h.durNs, h.parent⟩⟩

/-- Every step of a table stands well. -/
def WellPlaced (steps : List StreamStep) : Prop :=
  ∀ (i : ℕ) (step : StreamStep), steps[i]? = some step → step.PlacedAt i

/-! ### The stream is a workflow -/

namespace Stream

/-- The stream so far is a workflow that the next event goes on. -/
structure Inv (stream : Stream) : Prop where
  workflow : Workflow stream.events
  sequence : stream.sequence = stream.events.length
  correlationId : ∀ e ∈ stream.events, e.correlationId = stream.correlationId
  nowNs : ∀ e ∈ stream.events, e.timestampNs ≤ stream.nowNs
  named : ∀ e ∈ stream.events, e.eventId ≠ ""

variable {stream : Stream} {step : StreamStep}

/-- The event that `add` appends. -/
theorem events_add (stream : Stream) (step : StreamStep) (eventHex spanId : String) :
    ∃ e, (stream.add step eventHex spanId).events = stream.events ++ [e] ∧
      e.eventId = newId "evt" eventHex ∧
      e.parentEventId = (step.parent.bind fun i => stream.events[i]?.map Event.eventId) ∧
      e.sequence = stream.sequence ∧ e.timestampNs = stream.nowNs + step.gapNs ∧
      e.eventType = step.eventType ∧ e.correlationId = stream.correlationId ∧
      e.payload = step.payload :=
  ⟨_, rfl, rfl, rfl, rfl, rfl, rfl, rfl, rfl⟩

theorem Inv.add (h : stream.Inv) (hstep : step.PlacedAt stream.events.length)
    (eventHex spanId : String) : (stream.add step eventHex spanId).Inv := by
  obtain ⟨e, hevents, hid, hparent, hsequence, htime, htype, hcorrelation, -⟩ :=
    events_add stream step eventHex spanId
  have hgap := hstep.gapNs
  have hdur := hstep.durNs
  have hlink : e.HasLink := by
    rcases hstep.parent with ⟨i, hi, hlt⟩ | ⟨hnone, hrequest⟩
    · -- the parent is an event of the stream, which has an id
      rw [hi, Option.bind_some, List.getElem?_eq_getElem hlt, Option.map_some] at hparent
      refine .inl ⟨by simp [hparent], fun hempty => ?_⟩
      rw [hparent] at hempty
      exact h.named _ (List.getElem_mem hlt) (Option.some.inj hempty)
    · refine .inr ⟨?_, htype.trans hrequest⟩
      rw [hparent, hnone, Option.bind_none]
  constructor
  case workflow =>
    rw [hevents]
    constructor
    case numbered =>
      intro i e' hi
      rcases lt_or_ge i stream.events.length with hlt | hge
      · rw [List.getElem?_append_left hlt] at hi
        exact h.workflow.numbered i e' hi
      · rw [List.getElem?_append_right hge, List.getElem?_singleton] at hi
        split_ifs at hi with hzero
        obtain rfl := Option.some.inj hi
        rw [hsequence, h.sequence]
        omega
    case inOrder =>
      rw [List.pairwise_append]
      refine ⟨h.workflow.inOrder, List.pairwise_singleton _ _, fun a ha b hb => ?_⟩
      rw [List.mem_singleton.mp hb, htime]
      have hnow := h.nowNs a ha
      omega
    case sameGroup =>
      have hall : ∀ a ∈ stream.events ++ [e], a.correlationId = stream.correlationId := by
        intro a ha
        rcases List.mem_append.mp ha with ha | ha
        · exact h.correlationId a ha
        · rw [List.mem_singleton.mp ha, hcorrelation]
      exact fun a ha b hb => (hall a ha).trans (hall b hb).symm
    case linked =>
      intro a ha
      rcases List.mem_append.mp ha with ha | ha
      · exact h.workflow.linked a ha
      · rw [List.mem_singleton.mp ha]
        exact hlink
  case sequence =>
    rw [hevents, List.length_append, List.length_singleton, Nat.cast_succ, ← h.sequence]
    rfl
  case correlationId =>
    intro a ha
    rw [hevents] at ha
    rcases List.mem_append.mp ha with ha | ha
    · exact h.correlationId a ha
    · rw [List.mem_singleton.mp ha]
      exact hcorrelation
  case nowNs =>
    intro a ha
    -- the clock goes on over the gap and the duration
    show a.timestampNs ≤ stream.nowNs + step.gapNs + step.durNs
    rw [hevents] at ha
    rcases List.mem_append.mp ha with ha | ha
    · have hnow := h.nowNs a ha
      omega
    · rw [List.mem_singleton.mp ha, htime]
      omega
  case named =>
    intro a ha
    rw [hevents] at ha
    rcases List.mem_append.mp ha with ha | ha
    · exact h.named a ha
    · rw [List.mem_singleton.mp ha, hid]
      exact newId_ne _ _

end Stream

section Build

variable {ids : StreamIds} {steps : List StreamStep} {recordingId : String}

/-- What the events of a stream are made of. -/
theorem map_stream (ids : StreamIds) (steps : List StreamStep) (recordingId : String) :
    (ids.stream steps recordingId).map (fun e => (e.eventType, e.payload, e.eventId)) =
      steps.zipIdx.map fun p => (p.1.eventType, p.1.payload, newId "evt" (ids.eventHex p.2)) := by
  have hrun : ∀ (labelled : List (StreamStep × String × String)) (stream : Stream),
      ((labelled.foldl (fun stream step => stream.add step.1 step.2.1 step.2.2) stream).events.map
        fun e => (e.eventType, e.payload, e.eventId)) =
      stream.events.map (fun e => (e.eventType, e.payload, e.eventId)) ++
        labelled.map fun step => (step.1.eventType, step.1.payload, newId "evt" step.2.1) := by
    intro labelled
    induction labelled with
    | nil => simp
    | cons step labelled ih =>
      intro stream
      obtain ⟨e, hevents, hid, -, -, -, htype, -, hpayload⟩ :=
        Stream.events_add stream step.1 step.2.1 step.2.2
      rw [List.foldl_cons, ih, hevents, List.map_append, List.append_assoc, List.map_singleton,
        htype, hpayload, hid, List.map_cons, List.singleton_append]
  rw [StreamIds.stream, build, hrun, StreamIds.label, List.map_map]
  rfl

@[simp]
theorem length_stream (ids : StreamIds) (steps : List StreamStep) (recordingId : String) :
    (ids.stream steps recordingId).length = steps.length := by
  simpa using congrArg List.length (map_stream ids steps recordingId)

/-- The event at a place of a stream. -/
theorem getElem?_stream {i : ℕ} {e : Event} (h : (ids.stream steps recordingId)[i]? = some e) :
    ∃ step, steps[i]? = some step ∧ e.eventType = step.eventType ∧ e.payload = step.payload ∧
      e.eventId = newId "evt" (ids.eventHex i) := by
  have hmap := congrArg (fun l => l[i]?) (map_stream ids steps recordingId)
  simp only [List.getElem?_map, h, Option.map_some, List.getElem?_zipIdx, Option.map_map] at hmap
  obtain ⟨step, hstep, hmade⟩ := Option.map_eq_some_iff.mp hmap.symm
  obtain ⟨htype, hrest⟩ := Prod.mk.inj hmade
  obtain ⟨hpayload, hid⟩ := Prod.mk.inj hrest
  exact ⟨step, hstep, htype.symm, hpayload.symm, by simpa using hid.symm⟩

/-- Ids that differ at the places of the table make different events. -/
theorem nodup_stream (h : Function.Injective ids.eventHex) (steps : List StreamStep)
    (recordingId : String) : ((ids.stream steps recordingId).map Event.eventId).Nodup := by
  rw [List.nodup_iff_injective_getElem]
  intro i j hij
  simp only [List.getElem_map] at hij
  obtain ⟨-, -, -, -, hi⟩ := getElem?_stream (List.getElem?_eq_getElem (by simpa using i.isLt))
  obtain ⟨-, -, -, -, hj⟩ := getElem?_stream (List.getElem?_eq_getElem (by simpa using j.isLt))
  rw [hi, hj] at hij
  exact Fin.ext (h (newId_injective "evt" hij))

/-- A stream goes on with the rest of a table. -/
theorem Stream.Inv.foldl_add {stream : Stream} (h : stream.Inv) (ids : StreamIds)
    (rest : List StreamStep)
    (hplaced : ∀ (i : ℕ) (step : StreamStep), rest[i]? = some step →
      step.PlacedAt (stream.events.length + i)) :
    (((rest.zipIdx stream.events.length).map fun p =>
      (p.1, ids.eventHex p.2, ids.spanId p.2)).foldl
        (fun stream step => stream.add step.1 step.2.1 step.2.2) stream).Inv := by
  induction rest generalizing stream with
  | nil => exact h
  | cons step rest ih =>
    have hadd := h.add (hplaced 0 step rfl) (ids.eventHex stream.events.length)
      (ids.spanId stream.events.length)
    have hlength : (stream.add step (ids.eventHex stream.events.length)
        (ids.spanId stream.events.length)).events.length = stream.events.length + 1 := by
      simp [Stream.add]
    -- the steps that are left keep their places, counted from one event later
    have hrest := ih hadd fun i step' hi => by
      rw [hlength, Nat.add_assoc, Nat.add_comm 1]
      exact hplaced (i + 1) step' hi
    rw [hlength] at hrest
    exact hrest

/-- **The stream of a table is a workflow.** -/
theorem workflow_stream (h : WellPlaced steps) (ids : StreamIds) (recordingId : String) :
    Workflow (ids.stream steps recordingId) := by
  have hinit : Stream.Inv { recordingId := recordingId
                            correlationId := newId "corr" ids.correlationHex
                            traceId := ids.traceId } :=
    ⟨⟨by simp, by simp, by simp, by simp⟩, rfl, by simp, by simp, by simp⟩
  refine (hinit.foldl_add ids steps fun i step hi => ?_).workflow
  rw [List.length_nil, Nat.zero_add]
  exact h i step hi

end Build

end InfraReplay
