import InfraReplay.Capture.Session
import InfraReplay.Common.Rely
import InfraReplay.Plugins.MockCapture
import InfraReplay.Recording.ImportFrame
import InfraReplay.Replay.Failure
import InfraReplay.Replay.HttpRun

/-!
# What a replay changes and what it stores

`run_replay` amid any number of `ingest_events` calls for its recording, all of them one atomic
step at a time. Ingestion only adds rows of the replay recording that no link names (`Ingested`),
so what holds of the other recordings, of the events that `finish_recording` has read and of their
links stays true between two steps.

`link_streams` maps an original to the event that replays it, and the table holds the other
direction. `LinksInto` is what makes the two the same: a link stays inside the run, and no two links
name one event.
-/

namespace InfraReplay

open Python

variable {codec : Codec} {order : RowOrder} {env : ReplayEnv} {options : ReplayOptions}
  {replayId recordingId : String} {events : List Event} {links : Dict String String}
  {s₀ s s' : Store}

/-! ### Where the replayed events come from -/

/-- The canonical events are built for the recording they are asked for, and a live target's
client has gone through its payloads. -/
structure ReplayEnv.Produced (codec : Codec) (env : ReplayEnv) : Prop where
  canonical : ∀ recordingId, ∃ correlationHex traceId steps,
    env.canonical recordingId = build recordingId correlationHex traceId steps
  send : ∀ recordingId payloads events, env.send recordingId payloads = .ok events →
    ∃ (target : HttpTarget) (size : ℕ) (steps : List SendStep) (st : Sending),
      target.recordingId = recordingId ∧
      Machine.run (Sending.step codec target size payloads) {} steps = some st ∧
      st.Done payloads ∧ events = st.events

/-- A mock replay answers under the ids of the canonical run. -/
theorem recordingId_of_mem_replayMock {supply : Supply} {canonical : List Event}
    (hcanonical : ∀ e ∈ canonical, e.recordingId = replayId) {subs : SubstitutionEngine}
    {originals : List Event} {e : Event} (he : e ∈ replayMock supply canonical subs originals) :
    e.recordingId = replayId := by
  induction originals generalizing subs with
  | nil => cases he
  | cons original originals ih =>
    rw [replayMock] at he
    split at he
    case h_1 => exact ih he
    case h_2 standIn hstandIn =>
      have hmem : standIn ∈ canonical := by
        obtain ⟨e', he', heq⟩ := List.mem_map.mp
          (Dict.mem_of_mem_ofPairs (Dict.mem_of_get?_eq_some hstandIn))
        exact (Prod.mk.inj heq).2 ▸ he'
      -- the stand-in keeps its recording
      split_ifs at he
      all_goals
        rcases List.mem_cons.mp he with rfl | he
        · exact hcanonical standIn hmem
        · exact ih he

/-- Whatever the target, the replayed events are events of the replay recording. -/
theorem ReplayEnv.Produced.owned (h : env.Produced codec) {source : Recording}
    (hreplayed : replayedEvents env options source = .ok events) {e : Event} (he : e ∈ events) :
    e.recordingId = newId "rpl" env.hex := by
  unfold replayedEvents replayRecording at hreplayed
  cases hsafe : ensureSafe options.target options.safety with
  | error e =>
    rw [hsafe] at hreplayed
    cases hreplayed
  | ok u =>
    rw [hsafe] at hreplayed
    simp only [bind, Except.bind] at hreplayed
    split_ifs at hreplayed with hnil hmock hhttp
    · obtain rfl := Except.ok.inj hreplayed
      obtain ⟨correlationHex, traceId, steps, hbuild⟩ := h.canonical (newId "rpl" env.hex)
      refine recordingId_of_mem_replayMock (fun e he => ?_) he
      rw [hbuild] at he
      exact recordingId_of_mem_build he
    · -- the client was made for the replay recording
      unfold replayHttp at hreplayed
      split_ifs at hreplayed
      obtain ⟨target, size, steps, st, htarget, hrun, -, rfl⟩ := h.send _ _ _ hreplayed
      rw [(Sending.inv_run hrun).recordingId_of_mem_events he, htarget]

/-! ### What ingestion does -/

/-- Rows of the recording came in, none of them with an original. -/
structure Ingested (recordingId : String) (s s' : Store) : Prop where
  recordings : s'.recordings = s.recordings
  comparisons : s'.comparisons = s.comparisons
  events : ∃ rows : List EventRow, s'.events.rows = s.events.rows ++ rows ∧
    ∀ row ∈ rows, row.event.recordingId = recordingId ∧ row.sourceEventId = none

/-- Ingesting nothing is ingesting. -/
theorem Ingested.refl (recordingId : String) (s : Store) : Ingested recordingId s s :=
  ⟨rfl, rfl, [], (List.append_nil _).symm, fun _ h => absurd h List.not_mem_nil⟩

/-- Adding events of the recording ingests them. -/
theorem ingested_addEvents {u : Unit} (h : s.addEvents (redactedRows events []) = .ok (u, s'))
    (howned : ∀ e ∈ events, e.recordingId = recordingId) : Ingested recordingId s s' := by
  obtain ⟨hrows, hrecordings, hcomparisons, -⟩ := Store.addEvents_eq_ok h
  refine ⟨hrecordings, hcomparisons, _, hrows, fun row hrow => ?_⟩
  obtain ⟨clean, hclean, rfl⟩ := List.mem_map.mp hrow
  obtain ⟨e, he, rfl⟩ := List.mem_map.mp hclean
  exact ⟨howned e he, rfl⟩

/-- So does appending them. -/
theorem guarantees_appendEvents (howned : ∀ e ∈ events, e.recordingId = recordingId) :
    (appendEvents recordingId events).Guarantees (Ingested recordingId) := by
  unfold appendEvents
  split_ifs
  · trivial
  · refine Prog.Guarantees.bind ?_ fun _ => trivial
    exact Prog.Guarantees.tx (Ingested.refl recordingId) fun s _ s' h =>
      ingested_addEvents h howned

/-- Events that are ingested for a recording are stored under its id, whatever id they carry. -/
theorem guarantees_ingestEvents (recordingId : String) (events : List Event) :
    (ingestEvents recordingId events).Guarantees (Ingested recordingId) := by
  refine (Prog.Guarantees.read _ (Ingested.refl recordingId)).bind fun status => ?_
  split
  · trivial
  · refine (guarantees_appendEvents fun e he => ?_).bind fun _ => trivial
    obtain ⟨e, -, rfl⟩ := List.mem_map.mp he
    rfl

/-- The recording has its rows and those that came in. -/
theorem Ingested.eventRows (h : Ingested recordingId s s') :
    ∃ rows : List EventRow, s'.eventRows recordingId = s.eventRows recordingId ++ rows ∧
      ∀ row ∈ rows, row.sourceEventId = none := by
  obtain ⟨rows, hrows, hnew⟩ := h.events
  have hall : (rows.filter fun row => row.event.recordingId = recordingId) = rows :=
    List.filter_eq_self.mpr fun row hrow => decide_eq_true (hnew row hrow).1
  refine ⟨rows, ?_, fun row hrow => (hnew row hrow).2⟩
  rw [Store.eventRows, hrows, List.filter_append, hall, Store.eventRows]

/-- No other recording is touched. -/
theorem Ingested.untouched (h : Ingested recordingId s s') {other : String}
    (hother : other ≠ recordingId) : Untouched s s' other where
  events := by
    obtain ⟨rows, hrows, hnew⟩ := h.events
    have hnone : (rows.filter fun row => row.event.recordingId = other) = [] :=
      List.filter_eq_nil_iff.mpr fun row hrow heq =>
        hother ((of_decide_eq_true heq).symm.trans (hnew row hrow).1)
    rw [Store.eventRows, hrows, List.filter_append, hnone, List.append_nil, Store.eventRows]
  recording := by rw [h.recordings]

/-! ### What holds between two steps -/

/-- The links stay inside the run, and no two of them have an end in common. -/
structure LinksInto (events : List Event) (links : Dict String String) : Prop where
  keys : links.keys.Nodup
  values : (links.map Prod.snd).Nodup
  inside : ∀ o eventId, links.get? o = some eventId → eventId ∈ events.map Event.eventId

/-- `link_streams` links events of the source to replayed ones, each at most once. -/
theorem linksInto_linkStreams {original replayed : List Event}
    (ho : (original.map Event.eventId).Nodup) (hr : (replayed.map Event.eventId).Nodup) :
    LinksInto replayed (linkStreams original replayed) where
  keys := nodup_keys_linkStreams replayed ho
  values := by
    have hget : ∀ link ∈ linkStreams original replayed,
        (linkStreams original replayed).get? link.1 = some link.2 := fun link hlink =>
      (Dict.get?_eq_some_iff (nodup_keys_linkStreams replayed ho)).mpr hlink
    refine (List.Nodup.of_map _ (nodup_keys_linkStreams replayed ho)).map_on ?_
    intro link hlink link' hlink' heq
    -- links with one end in common have the other in common too
    have hfst : link.1 = link'.1 :=
      linkStreams_injective ho hr (hget link hlink) (heq ▸ hget link' hlink')
    exact Prod.ext hfst heq
  inside o eventId h := by
    obtain ⟨-, -, e, he, -, rfl, -⟩ := exists_of_get?_linkStreams ho h
    exact List.mem_map_of_mem he

/-- Every event has a row of the recording that `rel` relates it to. -/
def Store.HasRows (recordingId : String) (rel : Event → EventRow → Prop) (events : List Event)
    (s : Store) : Prop :=
  ∀ e ∈ events, ∃ row ∈ s.eventRows recordingId, rel e row

/-- The replay up to the commit of its links. -/
structure Unlinked (replayId : String) (s₀ s : Store) : Prop where
  untouched : ∀ id ≠ replayId, Untouched s₀ s id
  comparisons : s.comparisons = s₀.comparisons
  sourceEventId : ∀ row ∈ s.eventRows replayId, row.sourceEventId = none

/-- The replay once its links are stored, for the events that were linked. -/
structure Linked (replayId : String) (events : List Event) (links : Dict String String)
    (s₀ s : Store) : Prop where
  untouched : ∀ id ≠ replayId, Untouched s₀ s id
  stored : s.HasRows replayId (fun e row => row.event = e) events
  sourceEventId : ∀ row ∈ s.eventRows replayId, ∀ o,
    row.sourceEventId = some o ↔ links.get? o = some row.eventId

/-- Events that are stored stay stored while others come in. -/
theorem stable_hasRows (replayId : String) (rel : Event → EventRow → Prop) (events : List Event) :
    Prog.Stable (Ingested replayId) (Store.HasRows replayId rel events) := by
  intro s s' hs h e he
  obtain ⟨row, hrow, hrel⟩ := hs e he
  obtain ⟨rows, hrows, -⟩ := h.eventRows
  exact ⟨row, hrows ▸ List.mem_append_left _ hrow, hrel⟩

/-- Before the links are written, what others ingest has none. -/
theorem stable_unlinked (replayId : String) (s₀ : Store) :
    Prog.Stable (Ingested replayId) (Unlinked replayId s₀) := by
  intro s s' hs h
  refine ⟨fun id hid => (hs.untouched id hid).trans (h.untouched hid),
    h.comparisons.trans hs.comparisons, fun row hrow => ?_⟩
  obtain ⟨rows, hrows, hnew⟩ := h.eventRows
  rw [hrows] at hrow
  rcases List.mem_append.mp hrow with hrow | hrow
  · exact hs.sourceEventId row hrow
  · exact hnew row hrow

/-- No link names a row that comes in later, since it names a row that is there. -/
theorem stable_linked (hlinks : LinksInto events links) (s₀ : Store) :
    Prog.Stable (Ingested replayId) (Linked replayId events links s₀) := by
  intro s s' hs h
  refine ⟨fun id hid => (hs.untouched id hid).trans (h.untouched hid),
    stable_hasRows replayId _ events s s' hs.stored h, fun row hrow o => ?_⟩
  obtain ⟨rows, hrows, hnew⟩ := h.eventRows
  have hnd : ((s.eventRows replayId ++ rows).map EventRow.eventId).Nodup :=
    hrows ▸ s'.nodup_eventRows replayId
  rw [hrows] at hrow
  rcases List.mem_append.mp hrow with hrow | hrow
  · exact hs.sourceEventId row hrow o
  · refine iff_of_false (by simp [hnew row hrow]) fun hlink => ?_
    -- the event that is linked has its row among those that were there
    obtain ⟨e, he, hid⟩ := List.mem_map.mp (hlinks.inside o _ hlink)
    obtain ⟨row', hrow', rfl⟩ := hs.stored e he
    rw [List.map_append, List.nodup_append'] at hnd
    exact hnd.2.2 (List.mem_map_of_mem hrow') (List.mem_map.mpr ⟨row, hrow, hid.symm⟩)

/-! ### What the transactions of a replay do -/

/-- A new row links nothing. -/
theorem Unlinked.addRecording (h : Unlinked replayId s₀ s) {row : RecordingRow} {u : Unit}
    (hid : row.recordingId = replayId) (hadd : s.addRecording row = .ok (u, s')) :
    Unlinked replayId s₀ s' := by
  obtain ⟨-, hevents, hcomparisons, -⟩ := Store.addRecording_eq_ok hadd
  have heventRows : ∀ id, s'.eventRows id = s.eventRows id := fun id => by
    rw [Store.eventRows, hevents, Store.eventRows]
  refine ⟨fun id hne => (h.untouched id hne).trans ⟨heventRows id, ?_⟩,
    hcomparisons.trans h.comparisons, fun row hrow => h.sourceEventId row (heventRows _ ▸ hrow)⟩
  exact Store.find?_addRecording_of_ne hadd (hid ▸ hne)

/-- Every event takes its place in its own row, and no other row changes. -/
theorem Unlinked.complete (h : Unlinked replayId s₀ s)
    (hrows : s.HasRows replayId (fun e row => (Store.placed e row).event = e) events)
    (hnd : (events.map Event.eventId).Nodup) (locator : List String) :
    Unlinked replayId s₀ (s.complete replayId events locator) ∧
      (s.complete replayId events locator).HasRows replayId (fun e row => row.event = e)
        events := by
  have howned : ∀ e ∈ events, ∃ row ∈ s.eventRows replayId, row.eventId = e.eventId := by
    intro e he
    obtain ⟨row, hrow, hplaced⟩ := hrows e he
    exact ⟨row, hrow, by rw [← hplaced]; rfl⟩
  have hcompleted := Store.eventRows_complete hnd locator s replayId replayId
  refine ⟨⟨fun id hne => (h.untouched id hne).trans ?_, ?_, fun row hrow => ?_⟩, fun e he => ?_⟩
  · exact ⟨Store.eventRows_complete_of_ne hnd howned hne locator,
      Store.find?_complete_of_ne hne events locator⟩
  · rw [← h.comparisons]
    exact Store.comparisons_complete replayId events locator s
  · rw [hcompleted] at hrow
    obtain ⟨row₀, hrow₀, rfl⟩ := List.mem_map.mp hrow
    -- placing an event in a row leaves its original
    cases events.find? fun e => e.eventId = row₀.eventId <;> exact h.sourceEventId row₀ hrow₀
  · obtain ⟨row, hrow, hplaced⟩ := hrows e he
    have hid : e.eventId = row.eventId := by
      rw [← hplaced]
      rfl
    have hfind : (events.find? fun e' => e'.eventId = row.eventId) = some e :=
      (Table.find?_eq_some_iff (t := ⟨events, hnd⟩)).mpr ⟨he, hid⟩
    refine ⟨Store.placed e row, ?_, hplaced⟩
    rw [hcompleted]
    exact List.mem_map.mpr ⟨row, hrow, by rw [hfind]; rfl⟩

/-- Every link is stored at the row it names, and no other row changes. -/
theorem Unlinked.linkEvents (h : Unlinked replayId s₀ s)
    (hrows : s.HasRows replayId (fun e row => row.event = e) events)
    (hlinks : LinksInto events links) : Linked replayId events links s₀ (s.linkEvents links) := by
  obtain ⟨hrecordings, -, -⟩ := Store.linkEvents_frame links s
  have hlinked := Store.eventRows_linkEvents hlinks.values s
  refine ⟨fun id hne => (h.untouched id hne).trans ⟨?_, by rw [hrecordings]⟩, fun e he => ?_,
    fun row hrow o => ?_⟩
  · rw [hlinked id]
    refine (List.map_congr_left fun row hrow => ?_).trans (List.map_id' _)
    have hnone : (links.find? fun link => link.2 = row.eventId) = none := by
      refine List.find?_eq_none.mpr fun link hlink heq => ?_
      obtain ⟨e, he, hid⟩ := List.mem_map.mp (hlinks.inside link.1 link.2
        ((Dict.get?_eq_some_iff hlinks.keys).mpr hlink))
      obtain ⟨row', hrow', rfl⟩ := hrows e he
      -- the link names a row of the run, and this row is not one
      exact Store.eventId_ne_of_mem_eventRows hne hrow hrow'
        ((of_decide_eq_true heq).symm.trans hid.symm)
    rw [hnone]
    rfl
  · obtain ⟨row, hrow, rfl⟩ := hrows e he
    show ∃ row' ∈ (s.linkEvents links).eventRows replayId, row'.event = row.event
    rw [hlinked replayId]
    refine ⟨_, List.mem_map_of_mem hrow, ?_⟩
    cases links.find? fun link => link.2 = row.eventId <;> rfl
  · rw [hlinked replayId] at hrow
    obtain ⟨row₀, hrow₀, rfl⟩ := List.mem_map.mp hrow
    rw [Dict.get?_eq_some_iff hlinks.keys]
    cases hfind : links.find? fun link => link.2 = row₀.eventId with
    | none =>
      -- no link names this row
      refine iff_of_false (by simp [h.sourceEventId row₀ hrow₀]) fun hlink => ?_
      simpa using List.find?_eq_none.mp hfind (o, row₀.eventId) hlink
    | some link =>
      have hmem : link ∈ links := List.mem_of_find?_eq_some hfind
      have hid : link.2 = row₀.eventId := by simpa using List.find?_some hfind
      show some link.1 = some o ↔ (o, row₀.eventId) ∈ links
      rw [Option.some_inj]
      constructor
      · rintro rfl
        exact hid ▸ hmem
      · intro hlink
        have heq : link = (o, row₀.eventId) :=
          List.inj_on_of_nodup_map hlinks.values hmem hlink hid
        rw [heq]

/-! ### A replay amid ingestion -/

/-- The replay recording is not open yet. -/
structure Unopened (replayId : String) (s₀ s : Store) : Prop where
  unlinked : Unlinked replayId s₀ s
  recordings : s.recordings = s₀.recordings

/-- Ingestion opens no recording. -/
theorem stable_unopened (replayId : String) (s₀ : Store) :
    Prog.Stable (Ingested replayId) (Unopened replayId s₀) := fun s s' hs h =>
  ⟨stable_unlinked replayId s₀ s s' hs.unlinked h, h.recordings.trans hs.recordings⟩

/-- Ingestion stores no comparison. -/
theorem stable_comparisons (replayId : String) (results : List ComparisonResult) :
    Prog.Stable (Ingested replayId) fun s => s.comparisons = results :=
  fun _ _ hs h => h.comparisons.trans hs

/-- What `get_recording` reads is the source as it was before the replay. -/
theorem amid_getRecording (order : RowOrder)
    (hfresh : replayId ∉ s₀.recordings.rows.map RecordingRow.recordingId) :
    (getRecording order recordingId).Amid (Ingested replayId)
      (fun r s => Unopened replayId s₀ s ∧ ∀ source, r = some source →
        ∃ row, s₀.recordings.find? recordingId = some row ∧
          source = rowToRecording row (s₀.eventsFor order recordingId))
      (Unopened replayId s₀) := by
  refine Prog.Amid.read_bind fun s hs => ⟨_, stable_unopened replayId s₀, hs, ?_⟩
  rw [hs.recordings]
  cases hrow : s₀.recordings.find? recordingId with
  | none => exact Prog.Amid.pure fun s hs => ⟨hs, fun _ h => by cases h⟩
  | some row =>
    -- a recording that is there is not the replay
    have hne : recordingId ≠ replayId := by
      rintro rfl
      exact hfresh (List.mem_map.mpr ⟨row, Table.find?_eq_some_iff.mp hrow⟩)
    refine Prog.Amid.read_bind fun s hs => ⟨_, stable_unopened replayId s₀, hs, ?_⟩
    refine Prog.Amid.pure fun s' hs' => ⟨hs', fun source hsource => ⟨row, rfl, ?_⟩⟩
    rw [← Option.some.inj hsource, Store.eventsFor,
      (hs.unlinked.untouched recordingId hne).events, Store.eventsFor]

/-- Opening the replay's row, with others ingesting before and after. -/
theorem amid_startRecording (s₀ : Store) {new : NewRecording} {hex : String}
    (hid : new.chosenId hex = replayId) :
    (startRecording new hex).Amid (Ingested replayId) (fun _ => Unlinked replayId s₀)
      (Unlinked replayId s₀) :=
  Prog.Amid.tx_bind fun _ _ _ hs hadd =>
    ⟨_, stable_unlinked replayId s₀, hs.addRecording hid hadd, Prog.Amid.pure fun _ hs => hs⟩

/-- The events that are appended have their rows from now on. -/
theorem amid_appendEvents (s₀ : Store) (howned : ∀ e ∈ events, e.recordingId = replayId) :
    (appendEvents replayId events).Amid (Ingested replayId)
      (fun _ s => Unlinked replayId s₀ s ∧
        s.HasRows replayId (fun e row => row.event = redact e) events)
      (Unlinked replayId s₀) := by
  unfold appendEvents
  split_ifs with hnil
  · rw [hnil]
    exact Prog.Amid.pure fun _ hs => ⟨hs, fun _ he => absurd he List.not_mem_nil⟩
  · refine Prog.Amid.tx_bind fun s _ s' hs hadd => ⟨_, (stable_unlinked replayId s₀).and
      (stable_hasRows replayId (fun e row => row.event = redact e) events), ⟨?_, fun e he => ?_⟩,
      Prog.Amid.pure fun _ hs => hs⟩
    · -- an append is what the others do
      exact stable_unlinked replayId s₀ s s' hs (ingested_addEvents hadd howned)
    · refine ⟨⟨redact e, none⟩, ?_, rfl⟩
      rw [eventRows_addEvents_owned hadd howned]
      exact List.mem_append_right _ (mem_redactedRows [] he)

/-- `finish_recording` returns events that are stored as it returns them, and among them is every
event that was appended before. -/
theorem amid_finishRecording (order : RowOrder) (replayId : String) (replayed : List Event)
    (s₀ : Store) :
    (finishRecording order replayId).Amid (Ingested replayId)
      (fun run s => (Unlinked replayId s₀ s ∧
        s.HasRows replayId (fun e row => row.event = e) run.events) ∧
          (run.events.map Event.eventId).Nodup ∧ ∀ e ∈ replayed, ∃ n parent,
            { redact e with sequence := n, parentEventId := parent } ∈ run.events)
      (fun s => Unlinked replayId s₀ s ∧
        s.HasRows replayId (fun e row => row.event = redact e) replayed) := by
  have hstable := (stable_unlinked replayId s₀).and
    (stable_hasRows replayId (fun e row => row.event = redact e) replayed)
  refine Prog.Amid.read_bind fun s hs => ⟨_, hstable, hs, ?_⟩
  cases s.recordings.find? replayId with
  | none => trivial
  | some row =>
    -- the events that are read have their rows from now on
    refine Prog.Amid.read_bind fun s hs => ⟨_, (stable_unlinked replayId s₀).and
      (stable_hasRows replayId (fun e row => (Store.placed e row).event = e)
        (correlate (s.eventsFor order replayId))),
      ⟨hs.1, fun e he => exists_placed_of_mem_correlate he⟩, ?_⟩
    have hnd := nodup_correlate_eventsFor order replayId s
    have hreplayed : ∀ e ∈ replayed, ∃ n parent, { redact e with
        sequence := n, parentEventId := parent } ∈ correlate (s.eventsFor order replayId) := by
      intro e he
      obtain ⟨row, hrow, hevent⟩ := hs.2 e he
      obtain ⟨hrow, hid⟩ := Store.mem_eventRows.mp hrow
      exact exists_mem_correlate (Store.mem_eventsFor.mpr ⟨row, hrow, hevent, hevent ▸ hid⟩)
    generalize correlate (s.eventsFor order replayId) = events at hnd hreplayed
    refine Prog.Amid.call_bind fun s locator s' hs hput => ⟨_, (stable_unlinked replayId s₀).and
      (stable_hasRows replayId (fun e row => (Store.placed e row).event = e) events), ?_, ?_⟩
    · obtain ⟨-, b, rfl, -⟩ := Store.putBlob_eq_ok hput
      exact ⟨⟨fun id hne => ⟨(hs.1.untouched id hne).events, (hs.1.untouched id hne).recording⟩,
        hs.1.comparisons, hs.1.sourceEventId⟩, hs.2⟩
    · refine Prog.Amid.tx_bind fun s _ s' hs hcommit => ⟨_, (stable_unlinked replayId s₀).and
        (stable_hasRows replayId (fun e row => row.event = e) events), ?_, ?_⟩
      · cases hcommit
        exact hs.1.complete hs.2 hnd locator
      · exact Prog.Amid.pure fun s hs => ⟨hs, hnd, hreplayed⟩

/-- What a replay of `source` leaves, when `replayed` came back from the target and `events` are
the events of its recording that were compared: nothing else is changed, the links are stored the
other way round, and the comparison is stored as it was made and summed up. -/
structure ReplayStored (cfg : Config) (options : ReplayOptions) (recordingId replayId : String)
    (source : Recording) (replayed events : List Event) (s₀ s : Store) (run : ReplayRun)
    (summary : Dict String ℕ) : Prop where
  untouched : ∀ id ≠ replayId, Untouched s₀ s id
  replayed : ∀ e ∈ replayed, ∃ n parent,
    { redact e with sequence := n, parentEventId := parent } ∈ events
  stored : s.HasRows replayId (fun e row => row.event = e) events
  reported : run = ⟨replayId, recordingId, options.target, linkStreams source.events events⟩
  sourceEventId : ∀ row ∈ s.eventRows replayId, ∀ o,
    row.sourceEventId = some o ↔ run.eventLinks.get? o = some row.eventId
  unlinked : ∀ row ∈ s.eventRows replayId,
    (∀ o, run.eventLinks.get? o ≠ some row.eventId) → row.sourceEventId = none
  comparisons : s.comparisons = s₀.comparisons ++
    (compareRun (comparators cfg) source events run.eventLinks).map fun r =>
      { r with replayRecordingId := replayId }
  summary : summary = categories.map fun c => (c.value,
    (compareRun (comparators cfg) source events run.eventLinks).countP fun r => r.category = c)

/-- Writing the links, with others ingesting before and after. -/
theorem amid_linkReplayEvents (hlinks : LinksInto events links) :
    (linkReplayEvents replayId links).Amid (Ingested replayId)
      (fun _ s => Linked replayId events links s₀ s ∧ s.comparisons = s₀.comparisons)
      (fun s => Unlinked replayId s₀ s ∧
        s.HasRows replayId (fun e row => row.event = e) events) := by
  refine Prog.Amid.tx fun s _ s' hs hlink => ⟨?_,
    (stable_linked hlinks s₀).and (stable_comparisons replayId s₀.comparisons)⟩
  cases hlink
  exact ⟨hs.1.linkEvents hs.2 hlinks, (Store.linkEvents_frame links s).2.1.trans hs.1.comparisons⟩

/-- Storing the comparison, with others ingesting before and after. -/
theorem amid_saveComparison (hlinks : LinksInto events links) (results : List ComparisonResult) :
    (saveComparison replayId results).Amid (Ingested replayId)
      (fun _ s => Linked replayId events links s₀ s ∧ s.comparisons = s₀.comparisons ++
        results.map fun r => { r with replayRecordingId := replayId })
      (fun s => Linked replayId events links s₀ s ∧ s.comparisons = s₀.comparisons) := by
  refine Prog.Amid.tx fun s _ s' hs hsave => ⟨?_,
    (stable_linked hlinks s₀).and (stable_comparisons replayId _)⟩
  cases hsave
  refine ⟨⟨fun id hne => ?_, hs.1.stored, hs.1.sourceEventId⟩, by rw [hs.2]⟩
  exact ⟨(hs.1.untouched id hne).events, (hs.1.untouched id hne).recording⟩

/-- The comparison of a replay reads its rows once and stores one result for each. -/
theorem amid_compareReplayed (cfg : Config) (options : ReplayOptions) (recordingId : String)
    {source run : Recording} {replayed : List Event} (ho : (source.events.map Event.eventId).Nodup)
    (hr : (run.events.map Event.eventId).Nodup)
    (hreplayed : ∀ e ∈ replayed, ∃ n parent,
      { redact e with sequence := n, parentEventId := parent } ∈ run.events) :
    (compareReplayed cfg options recordingId replayId source run).Amid (Ingested replayId)
      (fun r s => ∃ events,
        ReplayStored cfg options recordingId replayId source replayed events s₀ s r.1 r.2)
      (fun s => Unlinked replayId s₀ s ∧
        s.HasRows replayId (fun e row => row.event = e) run.events) := by
  have hlinks := linksInto_linkStreams ho hr
  refine (amid_linkReplayEvents hlinks).bind fun _ _ _ =>
    (amid_saveComparison hlinks _).bind fun _ _ _ => Prog.Amid.pure fun s hs => ?_
  refine ⟨run.events, hs.1.untouched, hreplayed, hs.1.stored, rfl, hs.1.sourceEventId,
    fun row hrow hnone => ?_, hs.2, summarize_eq _⟩
  exact Option.eq_none_iff_forall_ne_some.mpr fun o ho =>
    hnone o ((hs.1.sourceEventId row hrow o).mp ho)

/-- A replay that could not send anything does not return. -/
theorem amid_failReplay {α : Type} {pre : Store → Prop} (replayId : String) (e : Error) :
    (failReplay replayId e : Prog Store Error α).Amid (Ingested replayId) (fun _ _ => False)
      pre := by
  cases e
  case replayError message =>
    exact Prog.Amid.tx_bind fun _ _ _ _ _ => ⟨fun _ => True, fun _ _ _ _ => trivial, trivial,
      trivial⟩
  all_goals trivial

/-- What follows the opening of the replay's row. -/
theorem amid_replayOpened (cfg : Config) (order : RowOrder) (options : ReplayOptions)
    (recordingId : String) (s₀ : Store) (henv : env.Produced codec) {source : Recording}
    (ho : (source.events.map Event.eventId).Nodup) :
    (replayOpened cfg order env options recordingId source).Amid (Ingested (newId "rpl" env.hex))
      (fun r s => ∃ replayed events, replayedEvents env options source = .ok replayed ∧
        ReplayStored cfg options recordingId (newId "rpl" env.hex) source replayed events s₀ s
          r.1 r.2)
      (Unlinked (newId "rpl" env.hex) s₀) := by
  unfold replayOpened
  cases hreplayed : replayedEvents env options source with
  | error e => exact (amid_failReplay _ e).bind fun _ _ h => h.elim
  | ok replayed =>
    show (storeReplayed order (newId "rpl" env.hex) replayed >>= _).Amid _ _ _
    -- append, finish, then link and compare, each on what the one before has left
    have hstore := (amid_appendEvents s₀ fun e => henv.owned hreplayed).bind fun _ _ _ =>
      amid_finishRecording order (newId "rpl" env.hex) replayed s₀
    refine hstore.bind fun run s hs => ?_
    obtain ⟨-, hr, hown⟩ := hs
    refine ((amid_compareReplayed cfg options recordingId ho hr hown).weaken
      fun s hs => hs.1).mono fun r s hs => ?_
    obtain ⟨events, hs⟩ := hs
    exact ⟨replayed, events, rfl, hs⟩

/-- The whole of `run_replay`, with others ingesting between its transactions. -/
theorem amid_runReplay (cfg : Config) (order : RowOrder) (options : ReplayOptions)
    (recordingId : String) (henv : env.Produced codec)
    (hfresh : newId "rpl" env.hex ∉ s₀.recordings.rows.map RecordingRow.recordingId) :
    (runReplay cfg order env options recordingId).Amid (Ingested (newId "rpl" env.hex))
      (fun r s => ∃ row replayed events, s₀.recordings.find? recordingId = some row ∧
        replayedEvents env options (rowToRecording row (s₀.eventsFor order recordingId)) =
          .ok replayed ∧
        ReplayStored cfg options recordingId (newId "rpl" env.hex)
          (rowToRecording row (s₀.eventsFor order recordingId)) replayed events s₀ s r.1 r.2)
      (Unopened (newId "rpl" env.hex) s₀) := by
  unfold runReplay
  -- a target that is refused and a source that is missing end the replay
  cases ensureSafe options.target options.safety with
  | error e => trivial
  | ok u =>
    refine (amid_getRecording order hfresh).bind fun r s hs => ?_
    cases r with
    | none => trivial
    | some source =>
      obtain ⟨row, hrow, rfl⟩ := hs.2 source rfl
      have ho : ((rowToRecording row (s₀.eventsFor order recordingId)).events.map
          Event.eventId).Nodup := Store.nodup_eventsFor order recordingId s₀
      simp only
      rw [replaySource_eq]
      have hreplay := (amid_startRecording s₀ (chosenId_replayRow
        (rowToRecording row (s₀.eventsFor order recordingId)) recordingId options.target
        env.hex)).bind fun _ _ _ => amid_replayOpened cfg order options recordingId s₀ henv ho
      refine (hreplay.weaken fun s hs => hs.1.unlinked).mono fun r s hs => ?_
      obtain ⟨replayed, events, hreplayed, hs⟩ := hs
      exact ⟨row, replayed, events, hrow, hreplayed, hs⟩

/-- **A replay changes only itself and stores what it reports.** Whatever is ingested for the
replay's id while it runs, and for however long after that: the rows of every other recording are
as they were; `source_event_id` is the inverse of the reported links; and the stored comparison and
the summary are those of `compare_run` on the source and on events of the replay that are stored,
among them every event that came back from the target. -/
theorem replayStored_of_returned (cfg : Config) (order : RowOrder) (options : ReplayOptions)
    (recordingId : String) (henv : env.Produced codec)
    (hfresh : newId "rpl" env.hex ∉ s₀.recordings.rows.map RecordingRow.recordingId)
    (hfreshRows : newId "rpl" env.hex ∉ s₀.events.rows.map fun row => row.event.recordingId)
    {turns : List (Company.Turn Error (List Event))}
    {c : Company Store Error (ReplayRun × Dict String ℕ) ℕ}
    (hrun : Machine.run (Company.step (ingestEvents (newId "rpl" env.hex)))
      ⟨s₀, runReplay cfg order env options recordingId, []⟩ turns = some c)
    {run : ReplayRun} {summary : Dict String ℕ} (hreturned : c.task = pure (run, summary)) :
    ∃ row replayed events, s₀.recordings.find? recordingId = some row ∧
      replayedEvents env options (rowToRecording row (s₀.eventsFor order recordingId)) =
        .ok replayed ∧
      ReplayStored cfg options recordingId (newId "rpl" env.hex)
        (rowToRecording row (s₀.eventsFor order recordingId)) replayed events s₀ c.state run
        summary := by
  have hturns := Company.takesTurns (guarantees_ingestEvents (newId "rpl" env.hex)) hrun
  rw [hreturned] at hturns
  have hunopened : Unopened (newId "rpl" env.hex) s₀ s₀ := by
    refine ⟨⟨fun id _ => Untouched.refl s₀ id, rfl, fun row hrow => ?_⟩, rfl⟩
    -- nothing is stored under the id of the replay
    rw [Store.mem_eventRows] at hrow
    exact absurd (List.mem_map.mpr ⟨row, hrow⟩) hfreshRows
  exact (amid_runReplay cfg order options recordingId henv hfresh).sound
    (stable_unopened _ s₀) hunopened hturns

/-- A recording of one result. -/
def resultStore : Store where
  recordings := ⟨[{ recordingId := "rec_1", kind := .capture, status := .completed }], by simp⟩
  events := ⟨[⟨.brief .pgResult "evt_a" "corr_a" 0, none⟩], by decide⟩
  comparisons := []
  blobs := .empty

/-- A mock target that answers with one result. -/
def resultEnv : ReplayEnv where
  hex := "1"
  supply := ⟨fun _ => "", fun _ => "", fun _ => 0⟩
  canonical recordingId := build recordingId "1" "trace"
    [({ eventType := .pgResult, payload := .empty, gapNs := 0, durNs := 1 }, "1", "span")]
  send _ _ := .error (.pluginError "not an HTTP replay")

/-- A statement is posted while the replay runs, and lands between its append and its
`finish_recording`. -/
def resultTurns : List (Company.Turn Error (List Event)) :=
  [.task, .task, .task, .joins [.brief .pgQuery "evt_sql" "corr_1" 5], .other 0, .task, .other 0,
    .task, .task, .task, .task, .task, .task]

theorem replayStored_result :
    ∃ c run, Machine.run (Company.step (ingestEvents "rpl_1"))
        ⟨resultStore, runReplay { ignoreFields := [] } .bySequence resultEnv { target := "mock" }
          "rec_1", []⟩ resultTurns = some c ∧
      run.eventLinks = [("evt_a", "evt_1")] ∧ (c.state.eventRows "rpl_1").length = 2 ∧
      ∃ row replayed events, resultStore.recordings.find? "rec_1" = some row ∧
        replayedEvents resultEnv { target := "mock" }
          (rowToRecording row (resultStore.eventsFor .bySequence "rec_1")) = .ok replayed ∧
        ReplayStored { ignoreFields := [] } { target := "mock" } "rec_1" "rpl_1"
          (rowToRecording row (resultStore.eventsFor .bySequence "rec_1")) replayed events
          resultStore c.state run
          [("MATCH", 1), ("DIFFERENT", 0), ("MISSING", 0), ("NEW", 0), ("ERROR", 0)] := by
  have henv : resultEnv.Produced sampleCodec := by
    refine ⟨fun recordingId => ⟨_, _, _, rfl⟩, fun recordingId payloads events h => ?_⟩
    cases h
  -- what the run returns
  have hdata : ((Machine.run (Company.step (ingestEvents "rpl_1"))
      ⟨resultStore, runReplay { ignoreFields := [] } .bySequence resultEnv { target := "mock" }
        "rec_1", []⟩ resultTurns).bind fun c => c.task.value?.map fun result =>
        (result.1.eventLinks, (c.state.eventRows "rpl_1").length, result.2)) =
      some ([("evt_a", "evt_1")], 2,
        [("MATCH", 1), ("DIFFERENT", 0), ("MISSING", 0), ("NEW", 0), ("ERROR", 0)]) := by
    decide
  obtain ⟨c, hrun, hc⟩ := Option.bind_eq_some_iff.mp hdata
  obtain ⟨⟨run, summary⟩, hvalue, hresult⟩ := Option.map_eq_some_iff.mp hc
  have htask := Prog.value?_eq_some_iff.mp hvalue
  obtain ⟨hlinks, hlength, rfl⟩ : run.eventLinks = _ ∧ _ ∧ summary = _ := by
    simpa only [Prod.mk.injEq] using hresult
  exact ⟨c, run, hrun, hlinks, hlength,
    replayStored_of_returned _ _ _ _ henv (by decide) (by decide) hrun htask⟩

end InfraReplay
