import InfraReplay.Recording.Service

/-!
# The finished recording does not depend on the order of arrival

The proxy and the instrumented application produce events independently, so the same events reach
`append_events` in different orders and in different batches, and rows whose sequence numbers
collide come back from the database in any order. With distinct clocks (`ClocksDistinct`) none of
that shows in the finished recording.

* `run_recordBatches`: appending batch by batch is appending everything at once.
* `arrival_order`: two arrivals of the same events finish as the same recording.
-/

namespace InfraReplay

open Python

/-- The events arrive batch by batch, then the recording is finished. -/
def recordBatches (order : RowOrder) (recordingId : String) :
    List (List Event) → Prog Store Error Recording
  | [] => finishRecording order recordingId
  | batch :: batches => do
    let _ ← appendEvents recordingId batch
    recordBatches order recordingId batches

/-- The events of a recording once some more have arrived. -/
def Store.recorded (s : Store) (recordingId : String) (arrived : List Event) : List Event :=
  (s.eventRows recordingId).map EventRow.event ++
    arrived.filter fun e => e.recordingId = recordingId

variable {s s₁ s₂ : Store} {recordingId : String}

theorem redactedRows_append (events events' : List Event) (links : Dict String String) :
    redactedRows (events ++ events') links =
      redactedRows events links ++ redactedRows events' links := by
  simp [redactedRows]

/-- Appending batch by batch is appending everything at once. -/
theorem run_recordBatches (order : RowOrder) (recordingId : String) (batches : List (List Event))
    (s : Store) :
    ((recordBatches order recordingId batches).run s).1 =
      match s.addEvents (redactedRows batches.flatten []) with
      | .ok ((), s') => ((finishRecording order recordingId).run s').1
      | .error e => .error e := by
  induction batches generalizing s with
  | nil => simp [recordBatches, redactedRows]
  | cons batch batches ih =>
    rw [recordBatches, List.flatten_cons, redactedRows_append, Store.addEvents_append]
    by_cases hnil : batch = []
    · -- an empty batch is no transaction
      subst hnil
      have hrun : (appendEvents recordingId []).run s = (.ok [], s) := rfl
      rw [Prog.run_bind_ok hrun, ih]
      simp [redactedRows]
    · have hrun := run_appendEvents recordingId batch [] s
      rw [if_neg hnil] at hrun
      cases hadd : s.addEvents (redactedRows batch []) with
      | ok r =>
        rw [hadd] at hrun
        rw [Prog.run_bind_ok hrun, ih]
      | error e =>
        rw [hadd] at hrun
        rw [Prog.run_bind_error hrun]

/-- The stored events of a recording after an append. -/
theorem map_event_eventRows_addEvents {events : List Event} {u : Unit}
    (h : s.addEvents (redactedRows events []) = .ok (u, s₁)) :
    (s₁.eventRows recordingId).map EventRow.event =
      (s.eventRows recordingId).map EventRow.event ++
        (events.filter fun e => e.recordingId = recordingId).map redact := by
  rw [Store.eventRows_addEvents h, filter_redactedRows, List.map_append, redactedRows,
    List.map_map]
  exact congrArg (_ ++ ·) (List.map_id _)

/-- Redaction of the arriving events keeps the clocks distinct. -/
theorem ClocksDistinct.eventRows {events : List Event} {u : Unit}
    (hclocks : ClocksDistinct (s.recorded recordingId events))
    (h : s.addEvents (redactedRows events []) = .ok (u, s₁)) :
    ClocksDistinct ((s₁.eventRows recordingId).map EventRow.event) := by
  refine hclocks.congr ?_
  rw [map_event_eventRows_addEvents h, Store.recorded, List.map_append, List.map_append,
    map_redact fun _ _ => rfl]

/-- Two stores with the same recording rows and files, and with the events of a recording in any two
orders, finish it alike. -/
theorem finishRecording_congr {order order' : RowOrder}
    (hrec : s₁.recordings = s₂.recordings) (hblobs : s₁.blobs = s₂.blobs)
    (hperm : ((s₁.eventRows recordingId).map EventRow.event).Perm
      ((s₂.eventRows recordingId).map EventRow.event))
    (hclocks : ClocksDistinct ((s₁.eventRows recordingId).map EventRow.event)) :
    ((finishRecording order recordingId).run s₁).1 =
      ((finishRecording order' recordingId).run s₂).1 := by
  have hfor := Store.eventsFor_perm order recordingId s₁
  have hfor' := Store.eventsFor_perm order' recordingId s₂
  -- the two correlate alike, and so the two snapshots and results agree
  have hevents : correlate (s₁.eventsFor order recordingId) =
      correlate (s₂.eventsFor order' recordingId) :=
    correlate_perm (hclocks.perm hfor.symm) (hfor.trans (hperm.trans hfor'.symm))
  cases hrow : s₁.recordings.find? recordingId with
  | none => rw [run_finishRecording_of_none hrow, run_finishRecording_of_none (hrec ▸ hrow)]
  | some row =>
    rw [run_finishRecording_eq hrow, run_finishRecording_eq (hrec ▸ hrow), hevents]
    have hput : (s₁.putBlob (snapshotKey recordingId)
        (snapshotDoc row (correlate (s₂.eventsFor order' recordingId)))).1 =
          (s₂.putBlob (snapshotKey recordingId)
            (snapshotDoc row (correlate (s₂.eventsFor order' recordingId)))).1 := by
      rw [Store.putBlob, Store.putBlob, hblobs]
    generalize s₁.putBlob _ _ = out₁, s₂.putBlob _ _ = out₂ at hput ⊢
    obtain ⟨outcome, s₁'⟩ := out₁
    obtain ⟨outcome', s₂'⟩ := out₂
    obtain rfl : outcome = outcome' := hput
    cases outcome <;> rfl

/-- Rows that can be added can be added in any order: a primary key that is taken, or given twice,
is so in every order. -/
theorem Store.exists_addEvents_of_perm {rows rows' : List EventRow} (hperm : rows.Perm rows')
    {r : Unit × Store} (h : s.addEvents rows = .ok r) : ∃ s', s.addEvents rows' = .ok ((), s') := by
  cases h' : s.addEvents rows' with
  | ok r' => exact ⟨r'.2, rfl⟩
  | error e =>
    obtain ⟨-, hdup⟩ := Store.addEvents_eq_error h'
    apply absurd _ hdup
    have hrows : r.2.events.rows = _ := (Store.addEvents_eq_ok h).1
    rw [← ((hperm.append_left _).map EventRow.eventId).nodup_iff, ← hrows]
    exact r.2.events.nodup

/-- **Arrival order.** With distinct clocks, correlation gives the same list for every order of
the events, and the finished recording is the same for every order and every batching in which
the events reach `append_events`, however the database orders rows with equal numbers. -/
theorem arrival_order :
    (∀ events events' : List Event, ClocksDistinct events → events.Perm events' →
      correlate events = correlate events') ∧
    ∀ (s : Store) (recordingId : String) (order order' : RowOrder)
      (batches batches' : List (List Event)),
      ClocksDistinct (s.recorded recordingId batches.flatten) →
      batches.flatten.Perm batches'.flatten →
        ((recordBatches order recordingId batches).run s).1 =
          ((recordBatches order' recordingId batches').run s).1 := by
  refine ⟨fun events events' hclocks hperm => correlate_perm hclocks hperm, ?_⟩
  intro s recordingId order order' batches batches' hclocks hperm
  rw [run_recordBatches, run_recordBatches]
  have hrows : (redactedRows batches.flatten []).Perm (redactedRows batches'.flatten []) :=
    (hperm.map redact).map _
  cases hadd : s.addEvents (redactedRows batches.flatten []) with
  | error e =>
    cases hadd' : s.addEvents (redactedRows batches'.flatten []) with
    | error e' =>
      -- the only error is a primary key that is taken
      obtain ⟨rfl, -⟩ := Store.addEvents_eq_error hadd
      obtain ⟨rfl, -⟩ := Store.addEvents_eq_error hadd'
      rfl
    | ok r =>
      -- rows that go in in one order go in in the other
      obtain ⟨s₁, hok⟩ := Store.exists_addEvents_of_perm hrows.symm hadd'
      rw [hadd] at hok
      cases hok
  | ok r =>
    obtain ⟨u, s₁⟩ := r
    obtain ⟨s₂, hadd'⟩ := Store.exists_addEvents_of_perm hrows hadd
    rw [hadd']
    refine finishRecording_congr ?_ ?_ ?_ (hclocks.eventRows hadd)
    · rw [(Store.addEvents_eq_ok hadd).2.1, (Store.addEvents_eq_ok hadd').2.1]
    · rw [(Store.addEvents_eq_ok hadd).2.2.2, (Store.addEvents_eq_ok hadd').2.2.2]
    · rw [map_event_eventRows_addEvents hadd, map_event_eventRows_addEvents hadd']
      exact ((hperm.filter _).map redact).append_left _

/-- A query whose row number collides with the proxy's, before and after the proxy's events. -/
theorem arrival_order_checkout :
    let request := Event.brief .httpRequest "evt_a" "corr_a" 0
    let response := Event.brief .httpResponse "evt_b" "corr_a" 9
    let query := { Event.brief .pgQuery "evt_c" "corr_a" 4 with sequence := 0 }
    let store := Store.withRecording
      { recordingId := "rec_1", kind := .capture, status := .recording }
    correlate [request, response, query] = correlate [query, response, request] ∧
      ((recordBatches .bySequence "rec_1" [[request], [response], [query]]).run store).1 =
        ((recordBatches .latestFirst "rec_1" [[query, response], [request]]).run store).1 :=
  ⟨arrival_order.1 _ _ ⟨by decide, by decide⟩ (List.reverse_perm _).symm,
    arrival_order.2 _ _ _ _ _ _ ⟨by decide, by decide⟩ (List.reverse_perm _).symm⟩

end InfraReplay
