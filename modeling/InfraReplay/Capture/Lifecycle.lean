import InfraReplay.Capture.Session
import InfraReplay.Common.Machine

/-!
# One recording while events still arrive

Any number of `ingest_events` calls and pumps add events to a recording while one
`finish_recording` completes it, and the database serialises their transactions in any order. The
state is the store and where every task stands; `Appender.step_code` and `Finisher.step_code` say
that a step is the next atomic step of the task's program.

`ingest_events` checks the status and appends in two transactions, and `finish_recording` reads
the events and commits in two. A batch that passed the check and lands after the read stays out of
the snapshot and keeps its own sequence numbers (`not_wholeWhenCompleted_late_batch`); when no
event lands after the read (`late`), a completed recording is whole
(`wholeWhenCompleted_of_inTime`).
-/

namespace InfraReplay

open Python

/-! ### The tasks -/

/-- Where a task that adds events stands. -/
inductive Appender where
  /-- `ingest_events` before its status check. -/
  | ingest (events : List Event)
  /-- `ingest_events` with a batch to append; the check has passed. -/
  | ingestOpen (event : Event) (events : List Event)
  /-- `ingest_events` has returned. -/
  | ingested (events : List Event)
  /-- The pump of a session, with the events its plugin still yields. -/
  | pump (events : List Event)
  /-- The task has raised. -/
  | raised (e : Error)

/-- Where `finish_recording` stands. -/
inductive Finisher where
  | start
  | hasRow (row : RecordingRow)
  | hasEvents (row : RecordingRow) (events : List Event)
  | hasBlob (row : RecordingRow) (events : List Event) (locator : List String)
  | returned (recording : Recording)
  | raised (e : Error)

/-- The store and the tasks that work on one recording. -/
structure Capture where
  store : Store
  appenders : List Appender
  finisher : Finisher

/-- Whose turn it is. -/
inductive Turn where
  | appender (i : ℕ)
  | finisher

section Tasks

variable (order : RowOrder) (recordingId : String)

/-- What is left of the program of an appender. -/
def Appender.code : Appender → Prog Store Error Unit
  | .ingest events => do
    let _ ← ingestEvents recordingId events
    return ()
  | .ingestOpen event events => do
    let _ ← appendEvents recordingId (stamped recordingId (event :: events))
    return ()
  | .ingested _ => return ()
  | .pump events => InfraReplay.pump recordingId events
  | .raised e => throw e

/-- The next transaction of an appender. -/
def Appender.step (s : Store) : Appender → Option (Appender × Store)
  | .ingest events =>
    -- the status is read on its own; the rows are added in a later transaction
    match ingestRefusal recordingId ((s.recordings.find? recordingId).map RecordingRow.status) with
    | some e => some (.raised e, s)
    | none =>
      match events with
      | [] => some (.ingested [], s)
      | event :: events => some (.ingestOpen event events, s)
  | .ingestOpen event events =>
    match s.addEvents (redactedRows (stamped recordingId (event :: events)) []) with
    | .ok ((), s') => some (.ingested (event :: events), s')
    | .error e => some (.raised e, s)
  | .pump (event :: events) =>
    match s.addEvents (redactedRows [event] []) with
    | .ok ((), s') => some (.pump events, s')
    | .error e => some (.raised e, s)
  | _ => none

/-- What is left of the program of `finish_recording`. -/
def Finisher.code : Finisher → Prog Store Error Recording
  | .start => finishRecording order recordingId
  | .hasRow row => do
    let events ← Prog.read fun s => correlate (s.eventsFor order recordingId)
    let locator ← Prog.call (Store.putBlob (snapshotKey recordingId) (snapshotDoc row events))
    Prog.tx fun s => .ok ((), s.complete recordingId events locator)
    return rowToRecording { row with status := .completed } events
  | .hasEvents row events => do
    let locator ← Prog.call (Store.putBlob (snapshotKey recordingId) (snapshotDoc row events))
    Prog.tx fun s => .ok ((), s.complete recordingId events locator)
    return rowToRecording { row with status := .completed } events
  | .hasBlob row events locator => do
    Prog.tx fun s => .ok ((), s.complete recordingId events locator)
    return rowToRecording { row with status := .completed } events
  | .returned recording => return recording
  | .raised e => throw e

/-- The next step of `finish_recording`. -/
def Finisher.step (s : Store) : Finisher → Option (Finisher × Store)
  | .start =>
    match s.recordings.find? recordingId with
    | none => some (.raised (.keyError recordingId), s)
    | some row => some (.hasRow row, s)
  | .hasRow row => some (.hasEvents row (correlate (s.eventsFor order recordingId)), s)
  | .hasEvents row events =>
    match s.putBlob (snapshotKey recordingId) (snapshotDoc row events) with
    | (.ok locator, s') => some (.hasBlob row events locator, s')
    | (.error e, s') => some (.raised e, s')
  | .hasBlob row events locator =>
    some (.returned (rowToRecording { row with status := .completed } events),
      s.complete recordingId events locator)
  | _ => none

/-- One turn. -/
def Capture.step (c : Capture) : Turn → Option Capture
  | .appender i =>
    c.appenders[i]?.bind fun a =>
      (a.step recordingId c.store).map fun r =>
        { c with store := r.2, appenders := c.appenders.set i r.1 }
  | .finisher =>
    (c.finisher.step order recordingId c.store).map fun r =>
      { c with store := r.2, finisher := r.1 }

variable {order recordingId}

/-- A turn of an appender is the next atomic step of its program. -/
theorem Appender.step_code (a : Appender) (s : Store) :
    (a.code recordingId).step s =
      (a.step recordingId s).map fun r => (r.1.code recordingId, r.2) := by
  cases a with
  | ingest events =>
    simp only [Appender.code, Appender.step, ingestEvents, getStatus, bind_assoc,
      Prog.step_read_bind]
    cases ingestRefusal recordingId
      ((s.recordings.find? recordingId).map RecordingRow.status) with
    | some e => rfl
    | none =>
      cases events with
      -- an empty batch is no transaction
      | nil => rfl
      | cons event events =>
        simp only [bind_assoc, pure_bind, Option.map_some]
  | ingestOpen event events =>
    rw [Appender.code, step_appendEvents_bind (by simp [stamped]), Appender.step]
    cases s.addEvents (redactedRows (stamped recordingId (event :: events)) []) <;> rfl
  | ingested events => rfl
  | pump events =>
    cases events with
    | nil => rfl
    | cons event events =>
      rw [Appender.code, InfraReplay.pump, step_appendEvents_bind (by simp), Appender.step]
      cases s.addEvents (redactedRows [event] []) <;> rfl
  | raised e => rfl

/-- A turn of the finisher is the next atomic step of `finish_recording`. -/
theorem Finisher.step_code (f : Finisher) (s : Store) :
    (f.code order recordingId).step s =
      (f.step order recordingId s).map fun r => (r.1.code order recordingId, r.2) := by
  cases f with
  | start =>
    rw [Finisher.code, finishRecording, Prog.step_read_bind, Finisher.step]
    cases s.recordings.find? recordingId <;> rfl
  | hasRow row =>
    rw [Finisher.code, Prog.step_read_bind, Finisher.step, Option.map_some, Finisher.code]
  | hasEvents row events =>
    rw [Finisher.code, Prog.step_call_bind, Finisher.step]
    rcases s.putBlob (snapshotKey recordingId) (snapshotDoc row events) with ⟨e | locator, s'⟩ <;>
      rfl
  | hasBlob row events locator =>
    rw [Finisher.code, Prog.step_tx_bind, Finisher.step, Option.map_some, Finisher.code]
  | returned recording => rfl
  | raised e => rfl

end Tasks

/-! ### A whole recording -/

/-- The recording lists `events`: they are what is stored and what the snapshot holds, numbered
from `0`, and among them is every event whose `ingest_events` call has returned. -/
structure Capture.Whole (recordingId : String) (c : Capture) (events : List Event) : Prop where
  stored : ∀ order, c.store.eventsFor order recordingId = events
  snapshot : ∃ path row, pathFor (snapshotKey recordingId) = some path ∧
    row.recordingId = recordingId ∧ c.store.blobs.file? path = some (snapshotDoc row events)
  numbered : events.map Event.sequence = (List.range events.length).map fun i : ℕ => (i : ℤ)
  ingested : ∀ batch, .ingested batch ∈ c.appenders → ∀ e ∈ stamped recordingId batch,
    ∃ n parent, { redact e with sequence := n, parentEventId := parent } ∈ events

/-- If the recording is completed, it is whole. -/
def WholeWhenCompleted (recordingId : String) (c : Capture) : Prop :=
  ∀ row, c.store.recordings.find? recordingId = some row → row.status = .completed →
    ∃ events, c.Whole recordingId events

/-- The recording is open and no task has taken a step. -/
structure Capture.Starting (recordingId : String) (c : Capture) : Prop where
  recording : ∃ row, c.store.recordings.find? recordingId = some row ∧ row.status = .recording
  appenders : ∀ a ∈ c.appenders, (∃ events, a = .ingest events) ∨ ∃ events, a = .pump events
  finisher : c.finisher = .start

/-- The events an appender's next transaction adds. -/
def Appender.batch (recordingId : String) : Appender → List Event
  | .ingestOpen event events => stamped recordingId (event :: events)
  | .pump (event :: _) => [event]
  | _ => []

/-- `finish_recording` has read the events and has not raised since. -/
def Finisher.hasRead : Finisher → Bool
  | .hasEvents _ _ | .hasBlob _ _ _ | .returned _ => true
  | _ => false

/-- The turn lets an event of the recording land after `finish_recording` has read the events. -/
def late (recordingId : String) (c : Capture) : Turn → Bool
  | .appender i =>
    c.finisher.hasRead &&
      match c.appenders[i]? with
      | some a =>
        (a.batch recordingId).any (fun e => e.recordingId = recordingId) &&
          (c.store.addEvents (redactedRows (a.batch recordingId) [])).toBool
      | none => false
  | .finisher => false

/-! ### The invariant -/

/-- The event is stored, whatever its place. -/
def Store.Holds (s : Store) (e : Event) : Prop :=
  ∃ row ∈ s.events.rows, ∃ n parent,
    row.event = { e with sequence := n, parentEventId := parent }

section Invariant

variable (order : RowOrder) (recordingId : String)

/-- What is true of the store where `finish_recording` stands. -/
def Finisher.Inv (s : Store) : Finisher → Prop
  | .start => s.Open recordingId
  | .hasRow row => s.Open recordingId ∧ row.recordingId = recordingId
  | .hasEvents row events =>
    s.Open recordingId ∧ row.recordingId = recordingId ∧
      events = correlate (s.eventsFor order recordingId)
  | .hasBlob row events _ =>
    s.Open recordingId ∧ row.recordingId = recordingId ∧
      events = correlate (s.eventsFor order recordingId) ∧
      ∃ path, pathFor (snapshotKey recordingId) = some path ∧
        s.blobs.file? path = some (snapshotDoc row events)
  | .returned _ =>
    ∃ events, (∀ order, s.eventsFor order recordingId = events) ∧
      (∃ path row, pathFor (snapshotKey recordingId) = some path ∧
        row.recordingId = recordingId ∧ s.blobs.file? path = some (snapshotDoc row events)) ∧
      events.map Event.sequence = (List.range events.length).map fun i : ℕ => (i : ℤ)
  | .raised _ => s.Open recordingId

/-- The invariant of the runs in which no event lands late. -/
structure Capture.Inv (c : Capture) : Prop where
  ingested : ∀ batch, .ingested batch ∈ c.appenders → ∀ e ∈ stamped recordingId batch,
    c.store.Holds (redact e)
  finisher : c.finisher.Inv order recordingId c.store

variable {order recordingId} {s s' : Store}

/-- What a turn of an appender can do: nothing to the store, or add its batch. -/
theorem Appender.step_cases {a a' : Appender} (h : a.step recordingId s = some (a', s')) :
    (s' = s ∧ ∀ batch, a' = .ingested batch → batch = []) ∨
      ∃ u, s.addEvents (redactedRows (a.batch recordingId) []) = .ok (u, s') ∧
        ∀ batch, a' = .ingested batch → stamped recordingId batch = a.batch recordingId := by
  cases a with
  | ingest events =>
    -- the call is refused, has nothing to append, or goes on to append
    left
    simp only [Appender.step] at h
    split at h
    · cases h
      exact ⟨rfl, fun _ h => by cases h⟩
    · cases events with
      | nil =>
        cases h
        exact ⟨rfl, fun _ h => by cases h; rfl⟩
      | cons event events =>
        cases h
        exact ⟨rfl, fun _ h => by cases h⟩
  | ingestOpen event events =>
    rw [Appender.step] at h
    split at h
    case h_1 s₁ hadd =>
      cases h
      exact .inr ⟨(), hadd, fun _ h => by cases h; rfl⟩
    case h_2 e hadd =>
      cases h
      exact .inl ⟨rfl, fun _ h => by cases h⟩
  | pump events =>
    cases events with
    | nil => cases h
    | cons event events =>
      rw [Appender.step] at h
      split at h
      case h_1 s₁ hadd =>
        cases h
        exact .inr ⟨(), hadd, fun _ h => by cases h⟩
      case h_2 e hadd =>
        cases h
        exact .inl ⟨rfl, fun _ h => by cases h⟩
  | ingested events => cases h
  | raised e => cases h

theorem Store.Holds.addEvents {rows : List EventRow} {u : Unit} {e : Event} (he : s.Holds e)
    (h : s.addEvents rows = .ok (u, s')) : s'.Holds e := by
  obtain ⟨row, hrow, hplace⟩ := he
  exact ⟨row, by simp [(Store.addEvents_eq_ok h).1, hrow], hplace⟩

/-- An appended event is stored redacted. -/
theorem Store.holds_of_addEvents {events : List Event} {u : Unit}
    (h : s.addEvents (redactedRows events []) = .ok (u, s')) {e : Event} (he : e ∈ events) :
    s'.Holds (redact e) := by
  refine ⟨⟨redact e, none⟩, ?_, _, _, rfl⟩
  rw [(Store.addEvents_eq_ok h).1]
  exact List.mem_append_right _ (mem_redactedRows [] he)

theorem Store.Holds.complete {e : Event} (he : s.Holds e) (events : List Event)
    (locator : List String) : (s.complete recordingId events locator).Holds e := by
  obtain ⟨row, hrow, n, parent, hplace⟩ := he
  obtain ⟨m, parent', hmem⟩ := Store.exists_mem_placeEvents events hrow
  exact ⟨_, hmem, m, parent', by rw [hplace]⟩

/-- Where `finish_recording` stands is not disturbed by an append that is not late. -/
theorem Finisher.Inv.addEvents {f : Finisher} {events : List Event} {u : Unit}
    (hf : f.Inv order recordingId s) (h : s.addEvents (redactedRows events []) = .ok (u, s'))
    (hlate : f.hasRead = true → ∀ e ∈ events, e.recordingId ≠ recordingId) :
    f.Inv order recordingId s' := by
  obtain ⟨-, hrec, -, hblobs⟩ := Store.addEvents_eq_ok h
  have hopen : s.Open recordingId → s'.Open recordingId := by
    rintro ⟨row, hrow, hstatus⟩
    exact ⟨row, hrec ▸ hrow, hstatus⟩
  -- once the events have been read, the recording's rows stay
  have hfor : f.hasRead = true → ∀ order', s'.eventsFor order' recordingId =
      s.eventsFor order' recordingId := by
    intro hread order'
    rw [Store.eventsFor, eventRows_addEvents_foreign h (hlate hread), Store.eventsFor]
  cases f with
  | start => exact hopen hf
  | hasRow row => exact ⟨hopen hf.1, hf.2⟩
  -- from here on the events have been read
  | hasEvents row events =>
    obtain ⟨hop, hid, hev⟩ := hf
    exact ⟨hopen hop, hid, by rw [hfor rfl, hev]⟩
  | hasBlob row events locator =>
    obtain ⟨hop, hid, hev, hblob⟩ := hf
    exact ⟨hopen hop, hid, by rw [hfor rfl, hev], by rwa [hblobs]⟩
  | returned recording =>
    obtain ⟨events, hstored, hsnapshot, hnumbered⟩ := hf
    exact ⟨events, fun order' => by rw [hfor rfl, hstored], by rwa [hblobs], hnumbered⟩
  | raised e => exact hopen hf

/-- A turn of `finish_recording` keeps the store's side of the invariant. -/
theorem Finisher.Inv.step {f f' : Finisher} (hf : f.Inv order recordingId s)
    (h : f.step order recordingId s = some (f', s')) : f'.Inv order recordingId s' := by
  cases f with
  | start =>
    obtain ⟨row, hrow, hstatus⟩ := hf
    rw [Finisher.step, hrow] at h
    cases h
    exact ⟨⟨row, hrow, hstatus⟩, (Table.find?_eq_some_iff.mp hrow).2⟩
  | hasRow row =>
    -- what has been read is the correlation of what is stored now
    cases h
    exact ⟨hf.1, hf.2, rfl⟩
  | hasEvents row events =>
    obtain ⟨hop, hid, hev⟩ := hf
    rw [Finisher.step] at h
    split at h
    case h_1 path s₁ hput =>
      cases h
      obtain ⟨hpath, b, rfl, hfiles⟩ := Store.putBlob_eq_ok hput
      exact ⟨hop, hid, hev, path, hpath, by rw [hfiles, if_pos rfl]⟩
    case h_2 e s₁ hput =>
      cases h
      obtain ⟨-, b, rfl, -⟩ := Store.putBlob_eq_error hput
      exact hop
  | hasBlob row events locator =>
    obtain ⟨-, hid, hev, hblob⟩ := hf
    cases h
    -- the commit places exactly the events that were read
    refine ⟨events, fun order' => eventsFor_complete order' locator hev, ?_, ?_⟩
    · obtain ⟨path, hpath, hget⟩ := hblob
      refine ⟨path, row, hpath, hid, ?_⟩
      rw [Store.complete]
      simpa [Store.setRecording] using hget
    · rw [hev, map_sequence_correlate, length_correlate]
  | returned recording => cases h
  | raised e => cases h

theorem Finisher.step_holds {f f' : Finisher} (h : f.step order recordingId s = some (f', s'))
    {e : Event} (he : s.Holds e) : s'.Holds e := by
  cases f with
  | start =>
    rw [Finisher.step] at h
    split at h
    all_goals
      cases h
      exact he
  | hasRow row =>
    cases h
    exact he
  | hasEvents row events =>
    rw [Finisher.step] at h
    split at h
    case h_1 path s₁ hput =>
      cases h
      obtain ⟨-, b, rfl, -⟩ := Store.putBlob_eq_ok hput
      exact he
    case h_2 e s₁ hput =>
      cases h
      obtain ⟨-, b, rfl, -⟩ := Store.putBlob_eq_error hput
      exact he
  -- the commit moves the event to another place and keeps it
  | hasBlob row events locator =>
    cases h
    exact he.complete events locator
  | returned recording => cases h
  | raised e => cases h

/-- A turn that is not late keeps the invariant. -/
theorem Capture.Inv.step {c c' : Capture} {turn : Turn} (hc : c.Inv order recordingId)
    (hlate : late recordingId c turn = false)
    (h : c.step order recordingId turn = some c') : c'.Inv order recordingId := by
  cases turn with
  | appender i =>
    rw [Capture.step] at h
    obtain ⟨a, ha, h⟩ := Option.bind_eq_some_iff.mp h
    obtain ⟨⟨a', s'⟩, hstep, rfl⟩ := Option.map_eq_some_iff.mp h
    rcases Appender.step_cases hstep with ⟨rfl, hnil⟩ | ⟨u, hadd, hbatch⟩
    · -- the store is as before
      refine ⟨fun batch hb e he => ?_, hc.finisher⟩
      rcases List.mem_or_eq_of_mem_set hb with hb | hb
      · exact hc.ingested batch hb e he
      · rw [hnil batch hb.symm] at he
        cases he
    · -- the batch is added, and the call that has returned is the one that added it
      refine ⟨fun batch hb e he => ?_, hc.finisher.addEvents hadd fun hread e he hid => ?_⟩
      · rcases List.mem_or_eq_of_mem_set hb with hb | hb
        · exact (hc.ingested batch hb e he).addEvents hadd
        · rw [hbatch batch hb.symm] at he
          exact Store.holds_of_addEvents hadd he
      · -- an event of the recording after the read would make the turn late
        have hany : (a.batch recordingId).any (fun e => e.recordingId = recordingId) = true :=
          List.any_eq_true.mpr ⟨e, he, decide_eq_true hid⟩
        simp [late, hread, ha, hany, hadd, Except.toBool] at hlate
  | finisher =>
    rw [Capture.step] at h
    obtain ⟨⟨f', s'⟩, hstep, rfl⟩ := Option.map_eq_some_iff.mp h
    exact ⟨fun batch hb e he => Finisher.step_holds hstep (hc.ingested batch hb e he),
      hc.finisher.step hstep⟩

/-- The invariant holds before any task has taken a step. -/
theorem Capture.Starting.inv {c : Capture} (hc : c.Starting recordingId) :
    c.Inv order recordingId where
  ingested := by
    intro batch hb
    rcases hc.appenders _ hb with ⟨_, h⟩ | ⟨_, h⟩ <;> cases h
  finisher := by
    rw [hc.finisher]
    exact hc.recording

/-- Until `finish_recording` has returned, the recording is open. -/
theorem Finisher.Inv.isOpen_or {f : Finisher} (hf : f.Inv order recordingId s) :
    s.Open recordingId ∨ ∃ recording, f = .returned recording := by
  cases f with
  | start => exact .inl hf
  | hasRow row => exact .inl hf.1
  | hasEvents row events => exact .inl hf.1
  | hasBlob row events locator => exact .inl hf.1
  | returned recording => exact .inr ⟨recording, rfl⟩
  | raised e => exact .inl hf

/-- Under the invariant a completed recording is whole. -/
theorem Capture.Inv.whole {c : Capture} (hc : c.Inv order recordingId) :
    WholeWhenCompleted recordingId c := by
  intro row hrow hstatus
  -- a completed recording is not open, so `finish_recording` has returned
  have hclosed : ¬c.store.Open recordingId := by
    rintro ⟨row', hrow', hopen⟩
    rw [hrow] at hrow'
    cases hrow'
    rw [hstatus] at hopen
    cases hopen
  obtain ⟨recording, hreturned⟩ := hc.finisher.isOpen_or.resolve_left hclosed
  have hf := hc.finisher
  rw [hreturned] at hf
  obtain ⟨events, hstored, hsnapshot, hnumbered⟩ := hf
  refine ⟨events, hstored, hsnapshot, hnumbered, fun batch hb e he => ?_⟩
  -- what a returned call has appended is stored under the recording
  obtain ⟨row', hrow', n, parent, hplace⟩ := hc.ingested batch hb e he
  refine ⟨n, parent, ?_⟩
  rw [← hstored .bySequence, Store.mem_eventsFor]
  refine ⟨row', hrow', hplace, ?_⟩
  obtain ⟨e₀, -, rfl⟩ := List.mem_map.mp he
  rfl

end Invariant

/-! ### Runs -/

/-- **A completed recording is whole** in every run in which no event of the recording lands
after `finish_recording` has read its events. -/
theorem wholeWhenCompleted_of_inTime {order : RowOrder} {recordingId : String}
    {c c' : Capture} {turns : List Turn} (hstart : c.Starting recordingId)
    (htime : Machine.Along (Capture.step order recordingId)
      (fun c turn => late recordingId c turn = false) c turns)
    (hrun : Machine.run (Capture.step order recordingId) c turns = some c') :
    WholeWhenCompleted recordingId c' := by
  have hinv : c'.Inv order recordingId :=
    Machine.invariant (fun _ _ _ hc hlate h => Capture.Inv.step hc hlate h) hstart.inv htime hrun
  exact hinv.whole

/-- A recording that is still open, and a query event that another process reports for it. -/
def openCapture : Capture where
  store := .withRecording { recordingId := "rec_1", kind := .capture, status := .recording }
  appenders := [.ingest [Event.brief .pgQuery "evt_q" "corr_a" 7]]
  finisher := .start

theorem starting_openCapture : openCapture.Starting "rec_1" where
  recording := ⟨{ recordingId := "rec_1", kind := .capture, status := .recording }, rfl, rfl⟩
  appenders a ha := .inl ⟨_, by simpa [openCapture] using ha⟩
  finisher := rfl

/-- A batch that lands before the read. -/
theorem wholeWhenCompleted_early_batch :
    ∃ c', Machine.run (Capture.step .bySequence "rec_1") openCapture
        [.appender 0, .appender 0, .finisher, .finisher, .finisher, .finisher] = some c' ∧
      WholeWhenCompleted "rec_1" c' := by
  obtain ⟨c', hrun⟩ := Option.isSome_iff_exists.mp
    (by decide : (Machine.run (Capture.step .bySequence "rec_1") openCapture
      [.appender 0, .appender 0, .finisher, .finisher, .finisher, .finisher]).isSome)
  exact ⟨c', hrun, wholeWhenCompleted_of_inTime starting_openCapture (by decide) hrun⟩

/-- A batch that passes the status check, waits while the recording is finished, and then lands:
the stored event keeps its own number. -/
theorem not_wholeWhenCompleted_late_batch :
    ¬∀ (c c' : Capture) (turns : List Turn), c.Starting "rec_1" →
      Machine.run (Capture.step .bySequence "rec_1") c turns = some c' →
        WholeWhenCompleted "rec_1" c' := by
  intro h
  obtain ⟨c', hrun⟩ := Option.isSome_iff_exists.mp
    (by decide : (Machine.run (Capture.step .bySequence "rec_1") openCapture
      [.appender 0, .finisher, .finisher, .finisher, .finisher, .appender 0]).isSome)
  have hrow : (c'.store.recordings.find? "rec_1").map RecordingRow.status = some .completed := by
    have : ((Machine.run (Capture.step .bySequence "rec_1") openCapture
        [.appender 0, .finisher, .finisher, .finisher, .finisher, .appender 0]).bind fun c =>
          (c.store.recordings.find? "rec_1").map RecordingRow.status) = some .completed := by
      decide
    rwa [hrun] at this
  have hseq : (c'.store.eventsFor .bySequence "rec_1").map Event.sequence = [7] := by
    have : ((Machine.run (Capture.step .bySequence "rec_1") openCapture
        [.appender 0, .finisher, .finisher, .finisher, .finisher, .appender 0]).map fun c =>
          (c.store.eventsFor .bySequence "rec_1").map Event.sequence) = some [7] := by
      decide
    rw [hrun] at this
    exact Option.some.inj this
  obtain ⟨row, hrow, hstatus⟩ := Option.map_eq_some_iff.mp hrow
  obtain ⟨events, hwhole⟩ := h _ c' _ starting_openCapture hrun row hrow hstatus
  have hnumbered := hwhole.numbered
  have hlength : events.length = 1 := by
    rw [← hwhole.stored .bySequence]
    simpa using congrArg List.length hseq
  -- its one event is numbered 7 and not 0
  rw [← hwhole.stored .bySequence, hseq, hwhole.stored, hlength] at hnumbered
  exact absurd hnumbered (by decide)

end InfraReplay
