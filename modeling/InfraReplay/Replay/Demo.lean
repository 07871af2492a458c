import InfraReplay.Replay.MockVerdict

/-!
# The demo

`demo.seed` captures a checkout that goes through and one whose payment is declined. Replayed
against the mock, which answers with the first, the one matches everywhere and the other differs in
the payment and in the response (`replay_of_seed`).
-/

namespace InfraReplay

open Python

namespace Fixtures

variable {cfg : Config}

/-- The steps of a fixture stand well. -/
theorem wellPlaced_steps (scenario : Scenario) : WellPlaced (steps scenario) := by
  have hall : ∀ p ∈ (steps scenario).zipIdx, p.1.PlacedAt p.2 := by
    cases scenario with
    | clean => decide
    | buggy => decide
  exact fun i step hi => hall (step, i) (List.mk_mem_zipIdx_iff_getElem?.mpr hi)

/-- Both fixtures go through the steps of the mock target. -/
theorem replayable_steps (scenario : Scenario) : Replayable (steps scenario) (steps .clean) where
  source := wellPlaced_steps scenario
  target := wellPlaced_steps .clean
  ne_nil := List.cons_ne_nil _ _
  sameTypes i a b ha hb := by
    have htypes : (steps scenario).map StreamStep.eventType =
        (steps .clean).map StreamStep.eventType := by
      cases scenario with
      | clean => rfl
      | buggy => rfl
    have hat := congrArg (fun l => l[i]?) htypes
    simp only [List.getElem?_map, ha, hb, Option.map_some, Option.some.injEq] at hat
    exact hat

/-- The places at which a fixture is compared. -/
theorem verdicts_steps (cfg : Config) (scenario : Scenario) :
    verdicts cfg (steps scenario) (steps .clean) =
      ([2, 5, 7, 9].filterMap fun i => (steps .clean)[i]?.map fun step =>
        (i, judge (postgresComparator cfg) (scrubPayload step.payload)
          (scrubPayload step.payload))) ++
      [(11, judge (postgresComparator cfg) (scrubPayload (paymentResult scenario))
          (scrubPayload (paymentResult .clean))),
        (13, judge (httpComparator cfg) (scrubPayload (responsePayload scenario))
          (scrubPayload (responsePayload .clean)))] := by
  cases scenario with
  | clean => rfl
  | buggy => rfl

/-- A key that names no volatile header is dropped only when it is configured. -/
theorem keeps_iff {k : String} (h : lower k ∉ volatileHeaders) :
    cfg.keeps k = true ↔ k ∉ cfg.ignoreFields := by
  simp [Config.keeps, h]

/-- The rows of the two payments differ in the state and in what comes with it. -/
theorem eq_paymentRows_iff (cfg : Config) :
    (normalize cfg ((scrubPayload (paymentResult .buggy)).getD "rows")).eq
        (normalize cfg ((scrubPayload (paymentResult .clean)).getD "rows")) = true ↔
      ∀ key ∈ ["state", "decline_code", "provider_ref"], key ∈ cfg.ignoreFields := by
  have hrows : ∀ scenario, (scrubPayload (paymentResult scenario)).getD "rows" =
      .list [(paymentRow scenario).val] := by
    intro scenario
    cases scenario with
    | clean => rfl
    | buggy => rfl
  have hkept : ∀ key ∈ ["state", "decline_code", "provider_ref"],
      (cfg.keeps key = false ↔ key ∈ cfg.ignoreFields) := by
    intro key hkey
    have hvolatile : ∀ key ∈ ["state", "decline_code", "provider_ref"],
        lower key ∉ volatileHeaders := by decide
    rw [← Bool.not_eq_true, keeps_iff (hvolatile key hkey), not_not]
  have hstates : placeholder "declined" ≠ placeholder "authorized" := by decide
  rw [Value.eq_iff_agrees (wf_normalize (Payload.wf_getD _ _)) (wf_normalize (Payload.wf_getD _ _)),
    agrees_normalize, hrows, hrows]
  -- one row on either side, compared key by key
  simp only [List.forall_mem_cons] at hkept
  simp only [paymentRow, Value.Agrees, Value.AgreesList, Value.AgreesItems, Dict.get?_cons,
    Dict.keys]
  simp [normalize, Value.EqAtom, Value.number?, Value.isNan, hstates, hkept.1, hkept.2.1,
    hkept.2.2.1, and_assoc]

/-- Without an error in the replay a pair that does not match is different. -/
theorem judge_compareFields {eventType : String} {fields : List (String × Value × Value)}
    {original replayed : Event} (herror : replayed.payload.has "error" = false)
    (h : ¬∀ f ∈ fields, f.2.1.eq f.2.2 = true) :
    (compareFields eventType fields original replayed).category = .different := by
  have hdiff : (fields.flatMap fun f => diffEntry f.1 f.2.1 f.2.2).isEmpty = false := by
    rw [List.isEmpty_eq_false_iff]
    exact mt flatMap_diffEntry_eq_nil.mp h
  unfold compareFields
  dsimp only
  rw [herror, if_neg Bool.false_ne_true, hdiff, if_neg Bool.false_ne_true]

theorem judge_payment (cfg : Config) :
    judge (postgresComparator cfg) (scrubPayload (paymentResult .buggy))
        (scrubPayload (paymentResult .clean)) =
      if ∀ key ∈ ["state", "decline_code", "provider_ref"], key ∈ cfg.ignoreFields then .match
      else .different := by
  have hfields : (∀ f ∈ ["rows_affected", "rows"].map fun key =>
      (key, normalize cfg ((scrubPayload (paymentResult .buggy)).getD key),
        normalize cfg ((scrubPayload (paymentResult .clean)).getD key)), f.2.1.eq f.2.2 = true) ↔
      ∀ key ∈ ["state", "decline_code", "provider_ref"], key ∈ cfg.ignoreFields := by
    rw [← eq_paymentRows_iff, List.map_cons, List.map_singleton, List.forall_mem_cons,
      List.forall_mem_singleton]
    -- one row is affected either way
    exact and_iff_right rfl
  split_ifs with hignored
  · exact (category_compareFields_iff rfl).mpr (hfields.mpr hignored)
  · exact judge_compareFields rfl (mt hfields.mp hignored)

/-- A declined checkout is answered with another status. -/
theorem judge_response (cfg : Config) :
    judge (httpComparator cfg) (scrubPayload (responsePayload .buggy))
      (scrubPayload (responsePayload .clean)) = .different := by
  refine judge_compareFields rfl fun hfields => ?_
  have hstatus := hfields ("status", .int 402, .int 201) (List.mem_cons_self ..)
  revert hstatus
  decide

/-- What a replay of a fixture comes to: the places that are compared, with the outcome of each. -/
def outcomes (cfg : Config) (scenario : Scenario) : List (ℕ × ComparisonCategory) :=
  [(2, .match), (5, .match), (7, .match), (9, .match)] ++
    match scenario with
    | .clean => [(11, .match), (13, .match)]
    | .buggy => [
      (11, if ∀ key ∈ ["state", "decline_code", "provider_ref"], key ∈ cfg.ignoreFields then .match
        else .different),
      (13, .different)]

/-- **The fixtures.** The clean checkout matches; the failing one differs in the payment and in the
response. -/
theorem verdicts_eq_outcomes (cfg : Config) (scenario : Scenario) :
    verdicts cfg (steps scenario) (steps .clean) = outcomes cfg scenario := by
  have hpgRule : comparatorFor (comparators cfg) EventType.pgResult.value =
      some (postgresComparator cfg) := rfl
  have hhttpRule : comparatorFor (comparators cfg) EventType.httpResponse.value =
      some (httpComparator cfg) := rfl
  have hpg : ∀ {payload : Payload}, payload.has "error" = false →
      (∀ p ∈ payload.items, p.2.isNan = false) →
        judge (postgresComparator cfg) payload payload = .match :=
    judge_self hpgRule
  have hhttp : ∀ {payload : Payload}, payload.has "error" = false →
      (∀ p ∈ payload.items, p.2.isNan = false) →
        judge (httpComparator cfg) payload payload = .match :=
    judge_self hhttpRule
  have hcommon : ([2, 5, 7, 9].filterMap fun i => (steps .clean)[i]?.map fun step =>
      (i, judge (postgresComparator cfg) (scrubPayload step.payload)
        (scrubPayload step.payload))) =
      [(2, .match), (5, .match), (7, .match), (9, .match)] := by
    -- no result before the payment speaks of an error
    have hplain : ∀ i ∈ [2, 5, 7, 9], ((steps .clean)[i]?.any fun step =>
        !(scrubPayload step.payload).has "error" &&
          (scrubPayload step.payload).items.all fun p => !p.2.isNan) = true := by decide
    calc _ = [2, 5, 7, 9].filterMap fun i => some (i, ComparisonCategory.match) := by
          refine List.filterMap_congr fun i hi => ?_
          obtain ⟨step, hstep, hpayload⟩ := (Option.any_eq_true _ _).mp (hplain i hi)
          obtain ⟨herror, hnan⟩ := Bool.and_eq_true_iff.mp hpayload
          rw [hstep, Option.map_some, hpg (by simpa using herror) (by simpa using hnan)]
      _ = _ := rfl
  rw [verdicts_steps, hcommon]
  cases scenario with
  | clean =>
    rw [hpg rfl (by decide), hhttp rfl (by decide)]
    rfl
  | buggy =>
    rw [judge_payment, judge_response]
    rfl

/-- Every place with an outcome has an answer of the mock. -/
theorem exists_answer (cfg : Config) (scenario : Scenario) :
    ∀ v ∈ outcomes cfg scenario, ((steps .clean)[v.1]?).isSome = true := by
  have hplaces : (outcomes cfg scenario).map Prod.fst = [2, 5, 7, 9, 11, 13] := by
    cases scenario with
    | clean => rfl
    | buggy => rfl
  have hsome : ∀ i ∈ [2, 5, 7, 9, 11, 13], ((steps .clean)[i]?).isSome = true := by decide
  exact fun v hv => hsome v.1 (hplaces ▸ List.mem_map_of_mem hv)

section Seed

variable {s : Store} {clean buggy : String × StreamIds} {ids : StreamIds} {env : ReplayEnv}
  {options : ReplayOptions}

/-- Seeding captures both fixtures, and the store has them from then on. -/
theorem run_seed
    (htakes : s.Takes (newId "rec" clean.1) (clean.2.stream (steps .clean) (newId "rec" clean.1)))
    (htakes' : s.Takes (newId "rec" buggy.1)
      (buggy.2.stream (steps .buggy) (newId "rec" buggy.1)))
    (hne : clean.1 ≠ buggy.1) (hapart : ∀ i j, clean.2.eventHex i ≠ buggy.2.eventHex j)
    (order : RowOrder) :
    ∃ r r' s₁ s₂, (seed order clean buggy).run s = (.ok [r, r'], s₂) ∧
      s.Took (newId "rec" clean.1) (clean.2.stream (steps .clean) (newId "rec" clean.1)) s₁ ∧
      s₁.Took (newId "rec" buggy.1) (buggy.2.stream (steps .buggy) (newId "rec" buggy.1)) s₂ ∧
      ∀ scenario made source,
        (scenario, made, source) ∈ [(Scenario.clean, clean, r), (Scenario.buggy, buggy, r')] →
          source.recordingId = newId "rec" made.1 ∧
          source.events = (made.2.stream (steps scenario) source.recordingId).map redact ∧
          ∀ order', (getRecording order' source.recordingId).run s₂ = (.ok (some source), s₂) := by
  have hdiffer : newId "rec" clean.1 ≠ newId "rec" buggy.1 := (newId_injective "rec").ne hne
  have hplugin : ∀ (made : String × StreamIds) (scenario : Scenario),
      mockCapture made.2 scenario.value (newId "rec" made.1) =
        { events := made.2.stream (steps scenario) (newId "rec" made.1) } := by
    intro made scenario
    rw [mockCapture, Scenario.ofValue_value]
  obtain ⟨r, s₁, hrun, hid, -, -, hevents, hget, htook⟩ :=
    run_captureRecording_workflow (hplugin clean .clean)
      (workflow_stream (wellPlaced_steps .clean) clean.2 _) htakes order "default"
      "Checkout — clean run" "mock_capture"
  have hstill := htakes'.of_took htook htakes.owned hdiffer.symm
    fun e he e' he' => eventId_ne_of_apart hapart he he'
  obtain ⟨r', s₂, hrun', hid', -, -, hevents', hget', htook'⟩ :=
    run_captureRecording_workflow (hplugin buggy .buggy)
      (workflow_stream (wellPlaced_steps .buggy) buggy.2 _) hstill order "default"
      "Checkout — payment step fails" "mock_capture"
  refine ⟨r, r', s₁, s₂, ?_, htook, htook', fun scenario made source hmem => ?_⟩
  · unfold seed
    rw [seedFrom, Prog.run_bind_ok hrun, seedFrom]
    simp only [bind_assoc]
    rw [Prog.run_bind_ok hrun']
    rfl
  · rcases List.mem_pair.mp hmem with h | h
    · obtain ⟨rfl, rfl, rfl⟩ : scenario = .clean ∧ made = clean ∧ source = r := by simpa using h
      refine ⟨hid, hid ▸ hevents, fun order' => ?_⟩
      rw [hid]
      -- the second capture leaves the first recording alone
      exact htook'.run_getRecording hdiffer (hget order')
    · obtain ⟨rfl, rfl, rfl⟩ : scenario = .buggy ∧ made = buggy ∧ source = r' := by simpa using h
      exact ⟨hid', hid' ▸ hevents', fun order' => hid' ▸ hget' order'⟩

/-- **The demo.** Seed any store and replay either recording against the mock, with any
substitutions: the clean checkout matches everywhere, and the failing one everywhere but in the
payment, unless the fields that tell the payments apart are ignored, and in the response. -/
theorem replay_of_seed
    (htakes : s.Takes (newId "rec" clean.1) (clean.2.stream (steps .clean) (newId "rec" clean.1)))
    (htakes' : s.Takes (newId "rec" buggy.1)
      (buggy.2.stream (steps .buggy) (newId "rec" buggy.1)))
    (htakes'' : s.Takes (newId "rpl" env.hex) (ids.stream (steps .clean) (newId "rpl" env.hex)))
    (hne : clean.1 ≠ buggy.1) (hapart : ∀ i j, clean.2.eventHex i ≠ buggy.2.eventHex j)
    (hfresh : ∀ i j, clean.2.eventHex i ≠ ids.eventHex j)
    (hfresh' : ∀ i j, buggy.2.eventHex i ≠ ids.eventHex j)
    (hmock : env.canonical (newId "rpl" env.hex) =
      ids.stream (steps .clean) (newId "rpl" env.hex))
    (htarget : options.target = mockTarget) (cfg : Config) (order order' : RowOrder) :
    ∃ r r' s₁, (seed order clean buggy).run s = (.ok [r, r'], s₁) ∧
      ∀ scenario made source,
        (scenario, made, source) ∈ [(Scenario.clean, clean, r), (Scenario.buggy, buggy, r')] →
          ∃ run s₂ results,
            (runReplay cfg order' env options source.recordingId).run s₁ =
              (.ok (run, summarize results), s₂) ∧
            s₂.comparisons =
              s.comparisons ++ results.map (fun r => r.savedFor run.replayRecordingId) ∧
            results.map ComparisonResult.outcome = (outcomes cfg scenario).map fun v =>
              (some (newId "evt" (made.2.eventHex v.1)), some (newId "evt" (ids.eventHex v.1)),
                v.2) := by
  obtain ⟨r, r', s₁, s₂, hseed, htook, htook', hstored⟩ :=
    run_seed htakes htakes' hne hapart order
  -- after both captures the store can still take the replay
  have hstill := (htakes''.of_took htook htakes.owned (newId_rpl_ne _ _)
    fun e he e' he' => eventId_ne_of_apart hfresh he he').of_took htook' htakes'.owned
      (newId_rpl_ne _ _) fun e he e' he' => eventId_ne_of_apart hfresh' he he'
  refine ⟨r, r', s₂, hseed, fun scenario made source hmem => ?_⟩
  obtain ⟨hid, hevents, hget⟩ := hstored scenario made source hmem
  have hnd : (source.events.map Event.eventId).Nodup := by
    have hids : source.events.map Event.eventId =
        (made.2.stream (steps scenario) (newId "rec" made.1)).map Event.eventId := by
      rw [hevents, List.map_map, hid]
      rfl
    rw [hids]
    rcases List.mem_pair.mp hmem with h | h
    · obtain ⟨rfl, rfl, -⟩ : scenario = .clean ∧ made = clean ∧ source = r := by simpa using h
      exact (List.nodup_append.mp htakes.events).2.1
    · obtain ⟨rfl, rfl, -⟩ : scenario = .buggy ∧ made = buggy ∧ source = r' := by simpa using h
      exact (List.nodup_append.mp htakes'.events).2.1
  -- either recording is that of a table, and so is what it is replayed against
  obtain ⟨run, s₃, results, hreplay, hcomparisons, houtcome⟩ :=
    run_replay_of_captured (replayable_steps scenario) (hget order') hevents hnd hmock hstill
      htarget cfg
  refine ⟨run, s₃, results, hreplay, ?_, ?_⟩
  · rw [hcomparisons, htook'.comparisons, htook.comparisons]
  · rw [houtcome, verdicts_eq_outcomes]
    refine List.map_congr_left fun v hv => ?_
    obtain ⟨step, hstep⟩ := Option.isSome_iff_exists.mp (exists_answer cfg scenario v hv)
    rw [hstep, Option.map_some]

end Seed

/-- The demo on an empty store. -/
theorem replay_of_seed_empty :
    ∃ r r' s₁,
      (seed .bySequence ("a", lettered 'a') ("b", lettered 'b')).run Store.empty =
        (.ok [r, r'], s₁) ∧
      ∀ scenario made source,
        (scenario, made, source) ∈
            [(Scenario.clean, ("a", lettered 'a'), r), (Scenario.buggy, ("b", lettered 'b'), r')] →
          ∃ run s₂ results,
            (runReplay {} .latestFirst (mockEnv (steps .clean)) { target := mockTarget }
              source.recordingId).run s₁ = (.ok (run, summarize results), s₂) ∧
            s₂.comparisons =
              Store.empty.comparisons ++
                results.map (fun r => r.savedFor run.replayRecordingId) ∧
            results.map ComparisonResult.outcome = (outcomes {} scenario).map fun v =>
              (some (newId "evt" (made.2.eventHex v.1)),
                some (newId "evt" ((lettered 'c').eventHex v.1)), v.2) :=
  @replay_of_seed Store.empty ("a", lettered 'a') ("b", lettered 'b') (lettered 'c')
    (mockEnv (steps .clean)) { target := mockTarget } (takes_empty 'a' _ (by decide) (by decide))
    (takes_empty 'b' _ (by decide) (by decide)) (takes_empty 'c' _ (by decide) (by decide))
    (by decide) (lettered_ne (by decide))
    (lettered_ne (by decide)) (lettered_ne (by decide)) rfl rfl {} .bySequence .latestFirst

end Fixtures

end InfraReplay
