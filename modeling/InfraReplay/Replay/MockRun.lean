import InfraReplay.Comparison.Aligned
import InfraReplay.Plugins.MockStream
import InfraReplay.Replay.Failure

/-!
# A replay against the mock target

The mock answers the steps of a recording with the steps of a canonical stream that have the same
numbers. When both are workflows, that is reading the two side by side (`standIns`), and the run is
compared with the recording place by place (`run_mock_replay`).
-/

namespace InfraReplay

open Python

/-! ### What the mock answers -/

/-- The canonical events beside the recorded ones. A request is sent as it was recorded, with its
values substituted. -/
def standIns (supply : Supply) : SubstitutionEngine → List Event → List Event → List Event
  | subs, original :: originals, standIn :: canonical =>
    if original.eventType = .httpRequest then
      { standIn with payload := (subs.apply supply original.payload).1 } ::
        standIns supply (subs.apply supply original.payload).2 originals canonical
    else standIn :: standIns supply subs originals canonical
  | _, _, _ => []

section StandIns

variable {supply : Supply} {originals canonical : List Event}

/-- The canonical events by their numbers are the events at these places. -/
theorem get?_bySequence (h : Workflow canonical) (k : ℕ) :
    (Dict.ofPairs (canonical.map fun e => (e.sequence, e))).get? (k : ℤ) = canonical[k]? := by
  have hnd : (canonical.map Event.sequence).Nodup :=
    List.pairwise_map.mpr (h.finished.pairwise_sequence.imp ne_of_lt)
  apply Option.ext
  intro e
  rw [Dict.get?_ofPairs_index hnd]
  constructor
  · rintro ⟨he, hk⟩
    obtain ⟨i, hi⟩ := List.getElem?_of_mem he
    have hnumber := h.numbered i e hi
    obtain rfl : i = k := by omega
    exact hi
  · exact fun hk => ⟨List.mem_of_getElem? hk, h.numbered k e hk⟩

/-- From the event number `k` on the mock reads the two streams side by side. -/
theorem replayMock_eq_drop (hc : Workflow canonical) {k : ℕ} (subs : SubstitutionEngine)
    (hnumbered : ∀ (i : ℕ) (e : Event), originals[i]? = some e →
      e.sequence = ((k + i : ℕ) : ℤ)) :
    replayMock supply canonical subs originals =
      standIns supply subs originals (canonical.drop k) := by
  -- all events have the correlation id of the first one
  have hsame : ∀ e ∈ canonical,
      (canonical.head?.map Event.correlationId).getD "" = e.correlationId := by
    intro e he
    cases hhead : canonical.head? with
    | none =>
      rw [List.head?_eq_none_iff.mp hhead] at he
      cases he
    | some first => exact hc.sameGroup first (List.mem_of_head? hhead) e he
  induction originals generalizing k subs with
  | nil => rfl
  | cons original originals ih =>
    have hrest := fun subs => @ih (k + 1) subs fun i e hi => by
      rw [hnumbered (i + 1) e hi]
      omega
    have hfirst : original.sequence = (k : ℤ) := hnumbered 0 original rfl
    rw [replayMock, hfirst, get?_bySequence hc]
    cases hk : canonical[k]? with
    | none =>
      -- beyond the canonical stream there is nothing on either side
      have hlen : canonical.length ≤ k := List.getElem?_eq_none_iff.mp hk
      rw [hrest, List.drop_eq_nil_of_le hlen, List.drop_eq_nil_of_le (by omega)]
      cases originals <;> rfl
    | some standIn =>
      obtain ⟨hlt, rfl⟩ := List.getElem?_eq_some_iff.mp hk
      rw [List.drop_eq_getElem_cons hlt]
      simp only [standIns, hsame _ (List.getElem_mem hlt), hrest]

/-- The mock reads the two workflows side by side. -/
theorem replayMock_eq_standIns (hc : Workflow canonical) (ho : Workflow originals)
    (subs : SubstitutionEngine) :
    replayMock supply canonical subs originals = standIns supply subs originals canonical := by
  have hall := @replayMock_eq_drop supply originals canonical hc 0 subs fun i e hi => by
    rw [ho.numbered i e hi, Nat.zero_add]
  rwa [List.drop_zero] at hall

/-- The mock changes payloads only, and stops with the shorter stream. -/
theorem map_withoutPayload_standIns (subs : SubstitutionEngine) (originals canonical : List Event) :
    (standIns supply subs originals canonical).map Event.withoutPayload =
      (canonical.take originals.length).map Event.withoutPayload := by
  induction originals generalizing subs canonical with
  | nil => cases canonical <;> rfl
  | cons original originals ih =>
    cases canonical with
    | nil => rfl
    | cons standIn canonical =>
      rw [standIns, List.length_cons, List.take_succ_cons, List.map_cons]
      split_ifs
      · rw [List.map_cons, ih]
        rfl
      · rw [List.map_cons, ih]

theorem workflow_standIns (hc : Workflow canonical) (subs : SubstitutionEngine)
    (originals : List Event) : Workflow (standIns supply subs originals canonical) :=
  (hc.take originals.length).congr (map_withoutPayload_standIns subs originals canonical)

/-- What the mock answers at a place, if both streams go that far. -/
theorem getElem?_standIns {subs : SubstitutionEngine} {i : ℕ} {e : Event}
    (h : (standIns supply subs originals canonical)[i]? = some e) :
    ∃ original standIn, originals[i]? = some original ∧ canonical[i]? = some standIn ∧
      e.withoutPayload = standIn.withoutPayload ∧
        (original.eventType ≠ .httpRequest → e = standIn) := by
  induction originals generalizing subs canonical i with
  | nil =>
    rw [standIns] at h
    · cases h
    · intro _ _ _ _ hnil
      cases hnil
  | cons original originals ih =>
    cases canonical with
    | nil => cases h
    | cons standIn canonical =>
      rw [standIns] at h
      cases i with
      | zero =>
        -- only a request gets the payload that was recorded
        refine ⟨original, standIn, rfl, rfl, ?_⟩
        split_ifs at h with hrequest
        · obtain rfl := Option.some.inj h
          exact ⟨rfl, fun hne => absurd hrequest hne⟩
        · obtain rfl := Option.some.inj h
          exact ⟨rfl, fun _ => rfl⟩
      | succ i =>
        split_ifs at h
        · exact ih h
        · exact ih h

theorem length_standIns (subs : SubstitutionEngine) (originals canonical : List Event) :
    (standIns supply subs originals canonical).length =
      min originals.length canonical.length := by
  have hlen := congrArg List.length
    (@map_withoutPayload_standIns supply subs originals canonical)
  simpa using hlen

end StandIns

/-! ### The run -/

section Run

variable {cfg : Config} {order : RowOrder} {env : ReplayEnv} {options : ReplayOptions}
  {recordingId : String} {source : Recording} {s : Store}

/-- What comes back of a replay against the mock. -/
def mockEvents (env : ReplayEnv) (options : ReplayOptions) (source : Recording) : List Event :=
  standIns env.supply
    (SubstitutionEngine.create env.supply options.substitutions options.auto)
    source.events (env.canonical (newId "rpl" env.hex))

/-- The mock does not look like production. -/
theorem ensureSafe_mock (safety : SafetyMode) : ensureSafe mockTarget safety = .ok () := by
  have hmock : ¬(safety = .safe ∧ looksLikeProd mockTarget = true) := fun h =>
    absurd h.2 (by decide)
  rw [ensureSafe, if_neg hmock]
  rfl

theorem replayedEvents_mock (htarget : options.target = mockTarget)
    (hsource : Workflow source.events) (hne : source.events ≠ [])
    (hcanonical : Workflow (env.canonical (newId "rpl" env.hex))) :
    replayedEvents env options source = .ok (mockEvents env options source) := by
  unfold replayedEvents replayRecording
  rw [htarget, ensureSafe_mock]
  show (if source.events = [] then _ else _) = _
  rw [if_neg hne, if_pos rfl, replayMock_eq_standIns hcanonical hsource]
  rfl

/-- What the mock answers has the ids of the canonical events. -/
theorem eventId_mockEvents_sublist (env : ReplayEnv) (options : ReplayOptions)
    (source : Recording) :
    ((mockEvents env options source).map Event.eventId).Sublist
      ((env.canonical (newId "rpl" env.hex)).map Event.eventId) := by
  have hids := congrArg (List.map Event.eventId)
    (@map_withoutPayload_standIns env.supply
      (SubstitutionEngine.create env.supply options.substitutions options.auto) source.events
      (env.canonical (newId "rpl" env.hex)))
  rw [List.map_map, List.map_map] at hids
  have hkept : (mockEvents env options source).map Event.eventId =
      ((env.canonical (newId "rpl" env.hex)).take source.events.length).map Event.eventId := hids
  rw [hkept]
  exact (List.take_sublist _ _).map _

/-- A store that can take the canonical events can take the answers. -/
theorem takes_mockEvents
    (h : s.Takes (newId "rpl" env.hex) (env.canonical (newId "rpl" env.hex))) :
    s.Takes (newId "rpl" env.hex) (mockEvents env options source) where
  recording := h.recording
  rows := h.rows
  path := h.path
  file := h.file
  owned e he := by
    obtain ⟨i, hi⟩ := List.getElem?_of_mem he
    obtain ⟨-, standIn, -, hstand, hsame, -⟩ := getElem?_standIns hi
    rw [← h.owned standIn (List.mem_of_getElem? hstand)]
    exact (congrArg Event.recordingId hsame :)
  events := h.events.sublist ((eventId_mockEvents_sublist env options source).append_left _)

/-- The answers go through the steps of the recording. -/
theorem aligned_mockEvents (hsource : Workflow source.events)
    (hcanonical : Workflow (env.canonical (newId "rpl" env.hex)))
    (htypes : ∀ (i : ℕ) (a b : Event), source.events[i]? = some a →
      (env.canonical (newId "rpl" env.hex))[i]? = some b → a.eventType = b.eventType) :
    Aligned source.events ((mockEvents env options source).map redact) where
  recorded := hsource
  rerun := (workflow_standIns hcanonical _ _).redact
  sameTypes i a b ha hb := by
    rw [List.getElem?_map, Option.map_eq_some_iff] at hb
    obtain ⟨e, he, rfl⟩ := hb
    obtain ⟨-, standIn, -, hstand, hsame, -⟩ := getElem?_standIns he
    rw [htypes i a standIn ha hstand]
    exact (congrArg Event.eventType hsame :).symm

/-- Linking, comparing and saving never fails. -/
theorem run_compareReplayed (cfg : Config) (options : ReplayOptions)
    (recordingId replayId : String) (source run : Recording) (s : Store) :
    (compareReplayed cfg options recordingId replayId source run).run s =
      (.ok ({
          replayRecordingId := replayId
          sourceRecordingId := recordingId
          target := options.target
          eventLinks := linkStreams source.events run.events },
        summarize (compareRun (comparators cfg) source run.events
          (linkStreams source.events run.events))),
      { s.linkEvents (linkStreams source.events run.events) with
        comparisons := (s.linkEvents (linkStreams source.events run.events)).comparisons ++
          (compareRun (comparators cfg) source run.events
            (linkStreams source.events run.events)).map fun r => r.savedFor replayId }) := rfl

/-- Storing a replay is adding its rows and finishing. -/
theorem run_storeReplayed {replayId : String} {events : List Event} {s₀ s₁ : Store}
    (hadd : s₀.addEvents (redactedRows events []) = .ok ((), s₁)) (order : RowOrder) :
    (storeReplayed order replayId events).run s₀ = (finishRecording order replayId).run s₁ := by
  have happend := run_appendEvents replayId events [] s₀
  unfold storeReplayed
  split_ifs at happend with hnil
  · -- nothing is added
    rw [Prog.run_bind_ok happend]
    rw [hnil] at hadd
    simp [redactedRows] at hadd
    rw [hadd]
  · rw [hadd] at happend
    rw [Prog.run_bind_ok happend]

/-- **A replay against the mock goes through**, and compares place by place. -/
theorem run_mock_replay (hget : (getRecording order recordingId).run s = (.ok (some source), s))
    (hsource : Workflow source.events) (hsome : source.events ≠ [])
    (hnd : (source.events.map Event.eventId).Nodup)
    (hcanonical : Workflow (env.canonical (newId "rpl" env.hex)))
    (htypes : ∀ (i : ℕ) (a b : Event), source.events[i]? = some a →
      (env.canonical (newId "rpl" env.hex))[i]? = some b → a.eventType = b.eventType)
    (hnamed : ∀ e ∈ env.canonical (newId "rpl" env.hex), e.eventId ≠ "")
    (htakes : s.Takes (newId "rpl" env.hex) (env.canonical (newId "rpl" env.hex)))
    (htarget : options.target = mockTarget) (cfg : Config) :
    ∃ run s',
      let replayed := (mockEvents env options source).map redact
      let results := compareAligned (comparators cfg) (replayIdOf replayed) source.events replayed
      (runReplay cfg order env options recordingId).run s = (.ok (run, summarize results), s') ∧
      run.replayRecordingId = newId "rpl" env.hex ∧
      s'.comparisons =
        s.comparisons ++ results.map fun r => r.savedFor (newId "rpl" env.hex) := by
  have hsafe : ensureSafe options.target options.safety = .ok () :=
    htarget ▸ ensureSafe_mock options.safety
  let new := replayRow source recordingId options.target (newId "rpl" env.hex)
  have hid : (new.row env.hex).recordingId = newId "rpl" env.hex :=
    chosenId_replayRow source recordingId options.target env.hex
  -- the replay recording is opened, filled and finished
  obtain ⟨s₀, s₁, s₂, hopen, hadd, hfinish, htook⟩ :=
    (takes_mockEvents htakes : s.Takes _ (mockEvents env options source)).exists_finished
      (workflow_standIns hcanonical _ _) hid
  have hstart : (startRecording new env.hex).run s = (.ok (newId "rpl" env.hex), s₀) := by
    rw [startRecording, Prog.run_bind_ok (Prog.run_tx_ok hopen)]
    exact congrArg (fun id => (Except.ok id, s₀)) hid
  -- what is compared are the events as they were stored
  let replayed := (mockEvents env options source).map redact
  have hids : replayed.map Event.eventId = (mockEvents env options source).map Event.eventId := by
    rw [List.map_map]
    rfl
  have hsub := eventId_mockEvents_sublist env options source
  have hreplayed : (replayed.map Event.eventId).Nodup := by
    rw [hids]
    exact (List.nodup_append.mp htakes.events).2.1.sublist hsub
  have hne : ∀ e ∈ replayed, e.eventId ≠ "" := by
    intro e he hempty
    have hmem : e.eventId ∈ (env.canonical (newId "rpl" env.hex)).map Event.eventId :=
      hsub.subset (hids ▸ List.mem_map_of_mem he)
    obtain ⟨standIn, hstand, hsame⟩ := List.mem_map.mp hmem
    exact hnamed standIn hstand (hsame.trans hempty)
  let links := linkStreams source.events replayed
  let results := compareAligned (comparators cfg) (replayIdOf replayed) source.events replayed
  have hcompare : compareRun (comparators cfg) source replayed links = results :=
    compareRun_of_aligned (aligned_mockEvents hsource hcanonical htypes) hnd hreplayed hne
  have hcomparisons : (s₂.linkEvents links).comparisons = s.comparisons :=
    (Store.linkEvents_frame links s₂).2.1.trans htook.comparisons
  refine ⟨{
      replayRecordingId := newId "rpl" env.hex
      sourceRecordingId := recordingId
      target := options.target
      eventLinks := links },
    { s₂.linkEvents links with
      comparisons := (s₂.linkEvents links).comparisons ++
        results.map fun r => r.savedFor (newId "rpl" env.hex) }, ?_, rfl, ?_⟩
  · unfold runReplay
    rw [hsafe]
    show (getRecording order recordingId >>= _).run s = _
    rw [Prog.run_bind_ok hget]
    simp only
    rw [replaySource_eq, Prog.run_bind_ok hstart]
    unfold replayOpened
    rw [replayedEvents_mock htarget hsource hsome hcanonical]
    show (storeReplayed order (newId "rpl" env.hex) (mockEvents env options source) >>= _).run
      s₀ = _
    rw [Prog.run_bind_ok ((run_storeReplayed hadd order).trans (hfinish order))]
    have hevents : (rowToRecording { new.row env.hex with status := .completed }
        ((mockEvents env options source).map redact)).events = replayed := rfl
    rw [run_compareReplayed, hevents, hcompare]
  · exact congrArg (fun l => l ++ results.map fun r => r.savedFor (newId "rpl" env.hex))
      hcomparisons

end Run

end InfraReplay
