import InfraReplay.Replay.MockRun

/-!
# What a capture by the mock plugin and its replay come to

Both the recording and the mock's answers are made of tables of steps, so the outcome of capturing
one table and replaying it against another is a function of the two tables (`verdicts`), whatever
ids are made up, however rows are read and whatever is substituted (`replay_of_stream`).
-/

namespace InfraReplay

open Python

/-! ### The outcome of two tables -/

/-- What a comparator says of two payloads. -/
def judge (comparator : ComparatorPlugin) (original replayed : Payload) : ComparisonCategory :=
  (comparator.compare (Event.brief .httpResponse "" "" 0 original)
    (Event.brief .httpResponse "" "" 0 replayed)).category

/-- The places that are compared, with the outcome at each. -/
def verdicts (cfg : Config) (recorded canonical : List StreamStep) :
    List (ℕ × ComparisonCategory) :=
  recorded.zipIdx.filterMap fun p =>
    (comparatorFor (comparators cfg) p.1.eventType.value).map fun comparator =>
      (p.2, match canonical[p.2]? with
        | none => .missing
        | some step =>
          judge comparator (scrubPayload p.1.payload) (scrubPayload step.payload))

/-- Two lists that give the same at every place give the same lists. -/
theorem filterMap_zipIdx_congr {α β γ : Type} {l : List α} {l' : List β} {f : α × ℕ → Option γ}
    {g : β × ℕ → Option γ} (hlen : l.length = l'.length)
    (h : ∀ (i : ℕ) (a : α) (b : β), l[i]? = some a → l'[i]? = some b → f (a, i) = g (b, i)) :
    l.zipIdx.filterMap f = l'.zipIdx.filterMap g := by
  have hrun : ∀ (k : ℕ) (l : List α) (l' : List β), l.length = l'.length →
      (∀ (i : ℕ) (a : α) (b : β), l[i]? = some a → l'[i]? = some b →
        f (a, k + i) = g (b, k + i)) →
      (l.zipIdx k).filterMap f = (l'.zipIdx k).filterMap g := by
    -- the numbering may start anywhere, which the induction needs
    intro k l l' hlen h
    induction l generalizing k l' with
    | nil =>
      rw [List.length_eq_zero_iff.mp hlen.symm]
      rfl
    | cons a l ih =>
      obtain ⟨b, l', rfl⟩ := List.exists_cons_of_length_eq_add_one hlen.symm
      have hrest := ih (k + 1) l' (Nat.succ.inj hlen) fun i a b ha hb => by
        rw [Nat.add_assoc, Nat.add_comm 1]
        exact h (i + 1) a b ha hb
      rw [List.zipIdx_cons, List.zipIdx_cons, List.filterMap_cons, List.filterMap_cons, hrest,
        ← Nat.add_zero k, h 0 a b rfl rfl]
  exact hrun 0 l l' hlen fun i a b ha hb => by rw [Nat.zero_add]; exact h i a b ha hb

section Judge

variable {cfg : Config} {comparator : ComparatorPlugin} {eventType : String}

/-- A registered comparator looks at payloads only. -/
theorem category_compare (h : comparatorFor (comparators cfg) eventType = some comparator)
    (original replayed : Event) :
    (comparator.compare original replayed).category =
      judge comparator original.payload replayed.payload := by
  have hcategory : ∀ {eventType : String} {fields : List (String × Value × Value)}
      {o r o' r' : Event}, r.payload = r'.payload →
        (compareFields eventType fields o r).category =
          (compareFields eventType fields o' r').category := by
    intro eventType fields o r o' r' hpayload
    unfold compareFields
    rw [hpayload]
    dsimp only
    split_ifs <;> rfl
  have hmem := List.mem_of_find?_eq_some h
  rcases List.mem_pair.mp hmem with rfl | rfl
  · exact hcategory rfl
  · exact hcategory rfl

/-- Equal payloads match, when they say nothing of an error and no entry is a NaN. -/
theorem judge_self (h : comparatorFor (comparators cfg) eventType = some comparator)
    {payload : Payload} (herror : payload.has "error" = false)
    (hnan : ∀ p ∈ payload.items, p.2.isNan = false) :
    judge comparator payload payload = .match := by
  have hentry : ∀ key, (payload.getD key).isNan = false := by
    intro key
    rw [Payload.getD, Payload.get?]
    cases hget : Dict.get? payload.items key with
    | none => rfl
    | some v => exact hnan _ (Dict.mem_of_get?_eq_some hget)
  -- a value that is no NaN is equal to itself, normalized or not
  have hfield : ∀ key, (payload.getD key).eq (payload.getD key) = true := fun key => by
    rw [Value.eq_self _ (payload.wf_getD key), hentry, Bool.not_false]
  have hnormal : ∀ key, (normalize cfg (payload.getD key)).eq
      (normalize cfg (payload.getD key)) = true := fun key => by
    rw [Value.eq_self _ (wf_normalize (payload.wf_getD key)), isNan_normalize, hentry,
      Bool.not_false]
  have hmem := List.mem_of_find?_eq_some h
  rcases List.mem_pair.mp hmem with rfl | rfl
  · refine (category_compareFields_iff herror).mpr fun f hf => ?_
    rcases List.mem_pair.mp hf with rfl | rfl
    · exact hfield "status"
    · exact hnormal "body"
  · refine (category_compareFields_iff herror).mpr fun f hf => ?_
    obtain ⟨key, -, rfl⟩ := List.mem_map.mp hf
    exact hnormal key

end Judge

/-! ### Captures and replays of tables -/

section Tables

variable {cfg : Config} {recorded canonical : List StreamStep} {ids ids' : StreamIds}

/-- A row by the events it is about and its category. -/
def ComparisonResult.outcome (r : ComparisonResult) :
    Option String × Option String × ComparisonCategory :=
  (r.originalEventId, r.replayedEventId, r.category)

/-- Comparing streams of two tables place by place is judging their steps. -/
theorem outcome_compareAligned {original replayed : List Event} {replayId : String}
    (horiginal : ∀ (i : ℕ) (e : Event), original[i]? = some e → ∃ step, recorded[i]? = some step ∧
      e.eventType = step.eventType ∧ e.eventId = newId "evt" (ids.eventHex i) ∧
        (step.eventType ≠ .httpRequest → e.payload = scrubPayload step.payload))
    (hlen : original.length = recorded.length)
    (hreplayed : ∀ (i : ℕ) (e : Event), replayed[i]? = some e → ∃ step, canonical[i]? = some step ∧
      e.eventId = newId "evt" (ids'.eventHex i) ∧
        ((∀ step', recorded[i]? = some step' → step'.eventType ≠ .httpRequest) →
          e.payload = scrubPayload step.payload))
    (hlen' : replayed.length = min recorded.length canonical.length) :
    (compareAligned (comparators cfg) replayId original replayed).map ComparisonResult.outcome =
      (verdicts cfg recorded canonical).map fun v =>
        (some (newId "evt" (ids.eventHex v.1)),
          canonical[v.1]?.map fun _ => newId "evt" (ids'.eventHex v.1), v.2) := by
  have hrest : replayed.drop original.length = [] := by
    apply List.drop_eq_nil_of_le
    omega
  rw [compareAligned, hrest, List.filter_nil, List.map_nil, List.append_nil, List.map_filterMap,
    verdicts, List.map_filterMap]
  refine filterMap_zipIdx_congr hlen fun i e step hi hstep => ?_
  obtain ⟨step', hstep', htype, hid, hpayload⟩ := horiginal i e hi
  obtain rfl : step = step' := Option.some.inj (hstep.symm.trans hstep')
  simp only [placeResult, htype]
  cases hcomp : comparatorFor (comparators cfg) step.eventType.value with
  | none => rfl
  | some comparator =>
    -- a request has no comparator
    have hne : step.eventType ≠ .httpRequest := by
      intro hrequest
      rw [hrequest] at hcomp
      exact absurd hcomp (by simp [comparatorFor, comparators, httpComparator, postgresComparator,
        EventType.value])
    simp only [Option.map_some, Option.some.injEq]
    cases hr : replayed[i]? with
    | none =>
      -- the target's table has ended
      have hnone : canonical[i]? = none := by
        have hlt := (List.getElem?_eq_some_iff.mp hstep).1
        have hle := List.getElem?_eq_none_iff.mp hr
        apply List.getElem?_eq_none
        omega
      rw [hnone]
      simp only [ComparisonResult.outcome, missingResult, hid, Option.map_none]
    | some e' =>
      obtain ⟨answer, hanswer, hid', hpayload'⟩ := hreplayed i e' hr
      have hstill : e'.payload = scrubPayload answer.payload :=
        hpayload' fun step' hstep' => by
          rw [hstep] at hstep'
          exact Option.some.inj hstep' ▸ hne
      have hverdict := isVerdict_compare hcomp e e'
      rw [hanswer]
      simp only [ComparisonResult.outcome, hverdict.originalEventId, hverdict.replayedEventId,
        category_compare hcomp, hid, hid', hpayload hne, hstill, Option.map_some]

/-- A table that is recorded, and the one it is replayed against: the same steps, as far as both
go. -/
structure Replayable (recorded canonical : List StreamStep) : Prop where
  source : WellPlaced recorded
  target : WellPlaced canonical
  ne_nil : recorded ≠ []
  sameTypes : ∀ (i : ℕ) (a b : StreamStep), recorded[i]? = some a → canonical[i]? = some b →
    a.eventType = b.eventType

/-- Captures and replays have different ids. -/
theorem newId_rpl_ne (hex hex' : String) : newId "rpl" hex ≠ newId "rec" hex' := by
  intro h
  have hsecond := congrArg (fun id : String => id.toList[1]?) h
  simp [newId] at hsecond

/-- What is stored of the event at a place of a stream. -/
theorem getElem?_map_redact_stream {steps : List StreamStep} {recordingId : String} {i : ℕ}
    {e : Event} (h : ((ids.stream steps recordingId).map redact)[i]? = some e) :
    ∃ step, steps[i]? = some step ∧ e.eventType = step.eventType ∧
      e.eventId = newId "evt" (ids.eventHex i) ∧ e.payload = scrubPayload step.payload := by
  rw [List.getElem?_map, Option.map_eq_some_iff] at h
  obtain ⟨e, hi, rfl⟩ := h
  obtain ⟨step, hstep, htype, hpayload, hid⟩ := getElem?_stream hi
  exact ⟨step, hstep, htype, hid, congrArg scrubPayload hpayload⟩

/-- **The replay of a captured table** goes through, and the stored comparison is that of the two
tables. -/
theorem run_replay_of_captured (h : Replayable recorded canonical) {s : Store}
    {source : Recording} {env : ReplayEnv} {options : ReplayOptions} {order : RowOrder}
    (hget : (getRecording order source.recordingId).run s = (.ok (some source), s))
    (hevents : source.events = (ids.stream recorded source.recordingId).map redact)
    (hnd : (source.events.map Event.eventId).Nodup)
    (hmock : env.canonical (newId "rpl" env.hex) = ids'.stream canonical (newId "rpl" env.hex))
    (htakes : s.Takes (newId "rpl" env.hex) (ids'.stream canonical (newId "rpl" env.hex)))
    (htarget : options.target = mockTarget) (cfg : Config) :
    ∃ run s' results,
      (runReplay cfg order env options source.recordingId).run s =
        (.ok (run, summarize results), s') ∧
      s'.comparisons =
        s.comparisons ++ results.map (fun r => r.savedFor run.replayRecordingId) ∧
      results.map ComparisonResult.outcome =
        (verdicts cfg recorded canonical).map fun v =>
          (some (newId "evt" (ids.eventHex v.1)),
            canonical[v.1]?.map fun _ => newId "evt" (ids'.eventHex v.1), v.2) := by
  have hsource : Workflow source.events :=
    hevents ▸ (workflow_stream h.source ids source.recordingId).redact
  have hcanonical : Workflow (env.canonical (newId "rpl" env.hex)) :=
    hmock ▸ workflow_stream h.target ids' _
  have hstep : ∀ (i : ℕ) (e : Event), source.events[i]? = some e → ∃ step,
      recorded[i]? = some step ∧ e.eventType = step.eventType ∧
        e.eventId = newId "evt" (ids.eventHex i) ∧ e.payload = scrubPayload step.payload :=
    fun i e hi => getElem?_map_redact_stream (hevents ▸ hi)
  have hlen : source.events.length = recorded.length := by
    rw [hevents, List.length_map, length_stream]
  have hsome : source.events ≠ [] := by
    intro hnil
    rw [hnil] at hlen
    exact h.ne_nil (List.length_eq_zero_iff.mp hlen.symm)
  have htypes : ∀ (i : ℕ) (a b : Event), source.events[i]? = some a →
      (env.canonical (newId "rpl" env.hex))[i]? = some b → a.eventType = b.eventType := by
    intro i a b ha hb
    rw [hmock] at hb
    obtain ⟨step, hstep, htype, -⟩ := hstep i a ha
    obtain ⟨step', hstep', htype', -⟩ := getElem?_stream hb
    rw [htype, htype', h.sameTypes i step step' hstep hstep']
  -- an id that was made up has its prefix
  have hnamed : ∀ e ∈ env.canonical (newId "rpl" env.hex), e.eventId ≠ "" := by
    intro e he
    obtain ⟨i, hi⟩ := List.getElem?_of_mem (hmock ▸ he)
    obtain ⟨-, -, -, -, heid⟩ := getElem?_stream hi
    rw [heid]
    exact newId_ne _ _
  obtain ⟨run, s', hreplay, hrun, hcomparisons⟩ := run_mock_replay hget hsource hsome hnd
    hcanonical htypes hnamed (hmock ▸ htakes) htarget cfg
  refine ⟨run, s', _, hreplay, by rw [hcomparisons, hrun], ?_⟩
  refine outcome_compareAligned (fun i e hi => ?_) hlen (fun i e hi => ?_) ?_
  · obtain ⟨step, hat, htype, heid, hpayload⟩ := hstep i e hi
    exact ⟨step, hat, htype, heid, fun _ => hpayload⟩
  · -- the answer at a place is the canonical event there, but for the payload of a request
    rw [List.getElem?_map, Option.map_eq_some_iff] at hi
    obtain ⟨e, hi, rfl⟩ := hi
    obtain ⟨original, standIn, ho, hstand, hsame, hkept⟩ := getElem?_standIns hi
    rw [hmock] at hstand
    obtain ⟨step, hat, htype, hpayload, heid⟩ := getElem?_stream hstand
    refine ⟨step, hat, heid ▸ (congrArg Event.eventId hsame :), fun hne => ?_⟩
    obtain ⟨step', hat', htype', -⟩ := hstep i original ho
    rw [hkept (htype' ▸ hne step' hat'), ← hpayload]
    rfl
  · rw [List.length_map, mockEvents, length_standIns, hlen, hmock, length_stream]

/-- The events of two streams with different ids are different. -/
theorem eventId_ne_of_apart (h : ∀ i j, ids.eventHex i ≠ ids'.eventHex j)
    {recordingId recordingId' : String} {e e' : Event} (he : e ∈ ids.stream recorded recordingId)
    (he' : e' ∈ ids'.stream canonical recordingId') : e.eventId ≠ e'.eventId := by
  intro hsame
  obtain ⟨i, hi⟩ := List.getElem?_of_mem he
  obtain ⟨j, hj⟩ := List.getElem?_of_mem he'
  obtain ⟨-, -, -, -, hi⟩ := getElem?_stream hi
  obtain ⟨-, -, -, -, hj⟩ := getElem?_stream hj
  rw [hi, hj] at hsame
  exact h i j (newId_injective "evt" hsame)

/-- **A capture and its replay.** From any store that can take the ids, the capture of a table goes
through, its replay against another table goes through, and the stored comparison is that of the
two tables. -/
theorem replay_of_stream (h : Replayable recorded canonical) {s : Store} {hex : String}
    {plugin : String → PluginRun} {env : ReplayEnv} {options : ReplayOptions}
    (hplugin : plugin (newId "rec" hex) =
      { events := ids.stream recorded (newId "rec" hex) })
    (hmock : env.canonical (newId "rpl" env.hex) = ids'.stream canonical (newId "rpl" env.hex))
    (htakes : s.Takes (newId "rec" hex) (ids.stream recorded (newId "rec" hex)))
    (htakes' : s.Takes (newId "rpl" env.hex) (ids'.stream canonical (newId "rpl" env.hex)))
    (hapart : ∀ i j, ids.eventHex i ≠ ids'.eventHex j) (htarget : options.target = mockTarget)
    (cfg : Config) (order order' : RowOrder) (project title pluginName : String) :
    ∃ source s₁ run s₂ results,
      (captureRecording order project title pluginName hex plugin).run s = (.ok source, s₁) ∧
      source.events = (ids.stream recorded source.recordingId).map redact ∧
      (runReplay cfg order' env options source.recordingId).run s₁ =
        (.ok (run, summarize results), s₂) ∧
      s₂.comparisons =
        s.comparisons ++ results.map (fun r => r.savedFor run.replayRecordingId) ∧
      results.map ComparisonResult.outcome =
        (verdicts cfg recorded canonical).map fun v =>
          (some (newId "evt" (ids.eventHex v.1)),
            canonical[v.1]?.map fun _ => newId "evt" (ids'.eventHex v.1), v.2) := by
  have hflow := workflow_stream h.source ids (newId "rec" hex)
  obtain ⟨source, s₁, hcapture, hid, -, -, hevents, hget, htook⟩ :=
    run_captureRecording_workflow hplugin hflow htakes order project title pluginName
  have hnd : (source.events.map Event.eventId).Nodup := by
    rw [hevents, List.map_map]
    exact (List.nodup_append.mp htakes.events).2.1
  -- the store still takes the events of the replay
  have hstill := htakes'.of_took htook htakes.owned (newId_rpl_ne env.hex hex)
    fun e he e' he' => eventId_ne_of_apart hapart he he'
  obtain ⟨run, s₂, results, hreplay, hcomparisons, houtcome⟩ :=
    run_replay_of_captured h (hid ▸ hget order') (hid ▸ hevents) hnd hmock hstill htarget cfg
  exact ⟨source, s₁, run, s₂, results, hcapture, hid ▸ hevents, hreplay,
    htook.comparisons ▸ hcomparisons, houtcome⟩

end Tables

/-! ### On an empty store -/

/-- Ids with a letter and a length. -/
def lettered (letter : Char) : StreamIds where
  correlationHex := "1"
  traceId := "2"
  eventHex i := String.ofList (letter :: List.replicate i '0')
  spanId _ := "3"

theorem lettered_ne {letter letter' : Char} (h : letter ≠ letter') (i j : ℕ) :
    (lettered letter).eventHex i ≠ (lettered letter').eventHex j := by
  intro heq
  have hchars := String.ofList_injective heq
  exact h (List.cons.inj hchars).1

theorem lettered_injective (letter : Char) : Function.Injective (lettered letter).eventHex := by
  intro i j heq
  have hchars := congrArg List.length (String.ofList_injective heq)
  simpa using hchars

theorem takes_empty (letter : Char) (steps : List StreamStep) {recordingId : String}
    (hpath : pathFor (snapshotKey recordingId) = some (snapshotFile recordingId))
    (hfile : BlobRoot.empty.takes (snapshotFile recordingId) = true) :
    Store.empty.Takes recordingId ((lettered letter).stream steps recordingId) where
  recording := List.not_mem_nil
  rows _ hrow := absurd hrow List.not_mem_nil
  path := hpath
  file := hfile
  owned _ he := recordingId_of_mem_build he
  events := nodup_stream (lettered_injective letter) steps recordingId

/-- A replay against the mock of a table. -/
def mockEnv (steps : List StreamStep) : ReplayEnv where
  hex := "1"
  supply := ⟨fun _ => "", fun _ => "", fun _ => 0⟩
  canonical := (lettered 'c').stream steps
  send _ _ := .ok []

/-- A request and its response. -/
def shortTable : List StreamStep := [
  { eventType := .httpRequest, payload := .empty, gapNs := 0, durNs := 2 },
  { eventType := .httpResponse
    payload := .ofEntries [("status", .ofInt 200)] (by simp)
    parent := some 0
    gapNs := 1
    durNs := 1 }]

/-- A request and its response, replayed against a mock that knows the request only. -/
theorem replay_of_stream_short :
    ∃ source s₁ run s₂ results,
      (captureRecording .bySequence "default" "" "short" "1"
        fun id => { events := (lettered 'a').stream shortTable id }).run Store.empty =
          (.ok source, s₁) ∧
      source.events = ((lettered 'a').stream shortTable source.recordingId).map redact ∧
      (runReplay {} .latestFirst (mockEnv (shortTable.take 1)) { target := mockTarget }
        source.recordingId).run s₁ = (.ok (run, summarize results), s₂) ∧
      s₂.comparisons =
        Store.empty.comparisons ++ results.map (fun r => r.savedFor run.replayRecordingId) ∧
      results.map ComparisonResult.outcome =
        (verdicts {} shortTable (shortTable.take 1)).map fun v =>
          (some (newId "evt" ((lettered 'a').eventHex v.1)),
            (shortTable.take 1)[v.1]?.map fun _ => newId "evt" ((lettered 'c').eventHex v.1),
            v.2) := by
  have hplaced : ∀ p ∈ shortTable.zipIdx, p.1.PlacedAt p.2 := by decide
  have hsource : WellPlaced shortTable := fun i step hi =>
    hplaced (step, i) (List.mk_mem_zipIdx_iff_getElem?.mpr hi)
  -- the shorter table is the beginning of the other
  have hshort : ∀ {i : ℕ} {step : StreamStep}, (shortTable.take 1)[i]? = some step →
      shortTable[i]? = some step := by
    intro i step hi
    rw [List.getElem?_take] at hi
    split_ifs at hi
    exact hi
  have htables : Replayable shortTable (shortTable.take 1) :=
    { source := hsource
      target := fun i step hi => hsource i step (hshort hi)
      ne_nil := List.cons_ne_nil _ _
      sameTypes := fun i a b ha hb => by
        rw [Option.some.inj (ha.symm.trans (hshort hb))] }
  exact replay_of_stream htables rfl rfl (takes_empty 'a' _ (by decide) (by decide))
    (takes_empty 'c' _ (by decide) (by decide)) (lettered_ne (by decide)) rfl {} .bySequence
    .latestFirst "default" "" "short"

end InfraReplay
