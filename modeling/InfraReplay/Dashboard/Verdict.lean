import InfraReplay.Comparison.Accounting

/-!
# The verdict on the replay page

`replay_comparison` counts the results of a comparison by category, and `_verdict` says above them
in one line how the replay went. The line is about the pairs that were compared: what one of the
two runs lacks is in the counts, but not in the line.
-/

namespace InfraReplay

open Python

/-! ### The page -/

/-- `counts[r["category"]] = counts.get(r["category"], 0) + 1`, for every result. -/
def countCategories (results : List ComparisonResult) : Dict String ℕ :=
  results.foldl (fun counts r =>
    counts.set r.category.value ((counts.get? r.category.value).getD 0 + 1)) []

/-- What `_verdict` shows. -/
structure ReplayVerdict where
  title : String
  color : String
  line : String

/-- The line of a replay without differences. -/
def matchedLine : String := "Replay matched the captured run exactly."

/-- `counts.get("DIFFERENT", 0) + counts.get("ERROR", 0)`. -/
def diffs (counts : Dict String ℕ) : ℕ :=
  (counts.get? "DIFFERENT").getD 0 + (counts.get? "ERROR").getD 0

/-- `_verdict`. -/
def verdict (counts : Dict String ℕ) (source replay : Recording) : ReplayVerdict where
  title := if source.title = "" then source.recordingId else source.title
  color := if diffs counts ≠ 0 then "#fbbf24" else "#34d399"
  line :=
    if diffs counts ≠ 0 then
      toString (diffs counts) ++ " difference" ++ (if diffs counts = 1 then "" else "s") ++
        " between the captured run and " ++ "the replay against “" ++
        replay.target.getD "None" ++ "”."
    else matchedLine

/-- The verdict says that the replay matched. -/
def SaysMatched (results : List ComparisonResult) (source replay : Recording) : Prop :=
  (verdict (countCategories results) source replay).line = matchedLine

/-- The counts are the numbers of the results. -/
theorem getD_countCategories (results : List ComparisonResult) (category : String) :
    ((countCategories results).get? category).getD 0 =
      results.countP fun r => r.category.value = category := by
  -- from any counts on, by induction on the rows
  have hrun : ∀ (rs : List ComparisonResult) (counts : Dict String ℕ),
      ((rs.foldl (fun counts r =>
          counts.set r.category.value ((counts.get? r.category.value).getD 0 + 1))
        counts).get? category).getD 0 =
        (counts.get? category).getD 0 + rs.countP fun r => r.category.value = category := by
    intro rs
    induction rs with
    | nil => simp
    | cons r rs ih =>
      intro counts
      rw [List.foldl_cons, ih, Dict.get?_set, List.countP_cons]
      by_cases hr : r.category.value = category
      · simp only [hr, if_true, decide_true, Option.getD_some]
        omega
      · simp [hr]
  rw [countCategories, hrun, Dict.get?_nil, Option.getD_none, Nat.zero_add]

/-- The line says that the replay matched when no difference is counted: any other line ends in a
closing quote. -/
theorem line_verdict_iff {counts : Dict String ℕ} {source replay : Recording} :
    (verdict counts source replay).line = matchedLine ↔ diffs counts = 0 := by
  rw [verdict]
  simp only
  by_cases hdiffs : diffs counts = 0
  · rw [if_neg (not_not.mpr hdiffs)]
    exact iff_of_true rfl hdiffs
  · rw [if_pos hdiffs]
    refine iff_of_false (fun heq => ?_) hdiffs
    have hlast := congrArg (fun s : String => s.toList.reverse[1]?) heq
    simp [matchedLine] at hlast

/-- The verdict looks at the results that are `DIFFERENT` or `ERROR`. -/
theorem saysMatched_iff {results : List ComparisonResult} {source replay : Recording} :
    SaysMatched results source replay ↔
      ∀ r ∈ results, r.category ≠ .different ∧ r.category ≠ .error := by
  have hvalue : ∀ c : ComparisonCategory, (c.value ≠ "DIFFERENT" ↔ c ≠ .different) ∧
      (c.value ≠ "ERROR" ↔ c ≠ .error) := by
    intro c
    cases c <;> decide
  rw [SaysMatched, line_verdict_iff, diffs, getD_countCategories, getD_countCategories,
    Nat.add_eq_zero_iff, List.countP_eq_zero, List.countP_eq_zero, ← forall₂_and]
  refine forall₂_congr fun r _ => ?_
  simp only [decide_eq_true_eq]
  exact and_congr (hvalue r.category).1 (hvalue r.category).2

/-! ### What was compared -/

/-- The walk pairs the original with the replayed event. -/
def IsPair (links : Dict String String) (src event : Event) : Prop :=
  links.get? src.eventId = some event.eventId ∧ event.eventId ≠ ""

/-- Every comparable original is paired with a replayed event and judged `MATCH`, and every
comparable replayed event is paired. -/
structure MatchedExactly (original : Recording) (replayed : List Event)
    (results : List ComparisonResult) : Prop where
  matched : ∀ src ∈ original.events, Comparable src → ∃ r ∈ results, ∃ event ∈ replayed,
    r.originalEventId = some src.eventId ∧ r.replayedEventId = some event.eventId ∧
      r.category = .match
  paired : ∀ event ∈ replayed, Comparable event → ∃ r ∈ results, ∃ src ∈ original.events,
    r.originalEventId = some src.eventId ∧ r.replayedEventId = some event.eventId

/-- Every comparable original has a partner, and every comparable replayed event is one. -/
structure Covered (original : Recording) (replayed : List Event) (links : Dict String String) :
    Prop where
  hasPartner : ∀ src ∈ original.events, Comparable src → ∃ event ∈ replayed, IsPair links src event
  isPartner : ∀ event ∈ replayed, Comparable event →
    ∃ src ∈ original.events, Comparable src ∧ IsPair links src event

/-- Some pair is judged otherwise than `MATCH`. -/
def Disagrees (cfg : Config) (original : Recording) (replayed : List Event)
    (links : Dict String String) : Prop :=
  ∃ src ∈ original.events, ∃ event ∈ replayed, ∃ comparator,
    comparatorFor (comparators cfg) src.eventType.value = some comparator ∧
      IsPair links src event ∧ (comparator.compare src event).category ≠ .match

section Compared

variable {cfg : Config} {original : Recording} {replayed : List Event}
  {links : Dict String String}

/-- A linked pair has its row. -/
theorem compare_mem_compareRun (hr : (replayed.map Event.eventId).Nodup) {src event : Event}
    {comparator : ComparatorPlugin} (hsrc : src ∈ original.events) (hevent : event ∈ replayed)
    (hcomp : comparatorFor (comparators cfg) src.eventType.value = some comparator)
    (hlink : IsPair links src event) :
    comparator.compare src event ∈ compareRun (comparators cfg) original replayed links := by
  rw [compareRun_eq]
  refine List.mem_append_left _ (List.mem_filterMap.mpr ⟨src, hsrc, ?_⟩)
  have hpartner : partner (replayById replayed) links src = some event :=
    (partner_eq_some_iff hr).mpr ⟨hevent, hlink.1, hlink.2⟩
  rw [resultFor, hcomp, Option.map_some, hpartner]

/-- A row that names two events is the one of a linked pair. -/
theorem exists_linked_of_mem (hr : (replayed.map Event.eventId).Nodup) {r : ComparisonResult}
    (h : r ∈ compareRun (comparators cfg) original replayed links) {srcId eventId : String}
    (hsrc : r.originalEventId = some srcId) (hevent : r.replayedEventId = some eventId) :
    ∃ src ∈ original.events, ∃ event ∈ replayed, ∃ comparator,
      comparatorFor (comparators cfg) src.eventType.value = some comparator ∧
        IsPair links src event ∧ r = comparator.compare src event ∧
          src.eventId = srcId ∧ event.eventId = eventId := by
  rw [compareRun_eq, List.mem_append] at h
  rcases h with h | h
  · obtain ⟨src, hmem, hres⟩ := List.mem_filterMap.mp h
    rw [resultFor, Option.map_eq_some_iff] at hres
    obtain ⟨comparator, hcomp, hrow⟩ := hres
    cases hp : partner (replayById replayed) links src with
    | none =>
      -- a missing original names no replayed event
      rw [hp] at hrow
      obtain rfl := hrow
      cases hevent
    | some event =>
      rw [hp] at hrow
      obtain rfl := hrow
      obtain ⟨hmem', hlink, hne⟩ := (partner_eq_some_iff hr).mp hp
      have hverdict := isVerdict_compare hcomp src event
      rw [hverdict.originalEventId] at hsrc
      rw [hverdict.replayedEventId] at hevent
      exact ⟨src, hmem, event, hmem', comparator, hcomp, ⟨hlink, hne⟩, rfl,
        Option.some.inj hsrc, Option.some.inj hevent⟩
  · -- a new event names no original
    obtain ⟨event, -, rfl⟩ := List.mem_map.mp h
    cases hsrc

/-- The verdict says that the replay matched when no pair is judged otherwise. -/
theorem saysMatched_compareRun_iff (hr : (replayed.map Event.eventId).Nodup) (replay : Recording) :
    SaysMatched (compareRun (comparators cfg) original replayed links) original replay ↔
      ¬Disagrees cfg original replayed links := by
  rw [saysMatched_iff]
  constructor
  · rintro h ⟨src, hsrc, event, hevent, comparator, hcomp, hlink, hne⟩
    obtain ⟨hdifferent, herror⟩ := h _ (compare_mem_compareRun hr hsrc hevent hcomp hlink)
    rcases (isVerdict_compare hcomp src event).category with hmatch | hcat | hcat
    · exact hne hmatch
    · exact hdifferent hcat
    · exact herror hcat
  · intro h r hmem
    by_contra hcat
    -- a row with one of the two categories is a judgement
    have hpair : ∃ srcId eventId, r.originalEventId = some srcId ∧
        r.replayedEventId = some eventId := by
      rcases compareRun_cases hr hmem with ⟨src, rfl⟩ | ⟨src, -, event, -, -, hverdict⟩ |
        ⟨event, rfl⟩
      · exact absurd ⟨nofun, nofun⟩ hcat
      · exact ⟨_, _, hverdict.originalEventId, hverdict.replayedEventId⟩
      · exact absurd ⟨nofun, nofun⟩ hcat
    obtain ⟨srcId, eventId, hsrcId, heventId⟩ := hpair
    obtain ⟨src, hsrc, event, hevent, comparator, hcomp, hlink, rfl, -, -⟩ :=
      exists_linked_of_mem hr hmem hsrcId heventId
    refine h ⟨src, hsrc, event, hevent, comparator, hcomp, hlink, fun hmatch => hcat ?_⟩
    rw [hmatch]
    exact ⟨nofun, nofun⟩

/-- When every pair is judged `MATCH`, a linked pair has a row that says so. -/
theorem exists_match_of_isPair (hr : (replayed.map Event.eventId).Nodup)
    (hagree : ¬Disagrees cfg original replayed links) {src event : Event}
    (hsrc : src ∈ original.events) (hc : Comparable src) (hevent : event ∈ replayed)
    (hlink : IsPair links src event) :
    ∃ r ∈ compareRun (comparators cfg) original replayed links,
      r.originalEventId = some src.eventId ∧ r.replayedEventId = some event.eventId ∧
        r.category = .match := by
  obtain ⟨comparator, hcomp⟩ := exists_comparatorFor cfg hc
  have hverdict := isVerdict_compare hcomp src event
  refine ⟨_, compare_mem_compareRun hr hsrc hevent hcomp hlink, hverdict.originalEventId,
    hverdict.replayedEventId, ?_⟩
  by_contra hne
  exact hagree ⟨src, hsrc, event, hevent, comparator, hcomp, hlink, hne⟩

/-- When every pair is judged `MATCH`, the runs match exactly when nothing is left over. -/
theorem matchedExactly_iff_covered (hr : (replayed.map Event.eventId).Nodup)
    (hagree : ¬Disagrees cfg original replayed links) :
    MatchedExactly original replayed (compareRun (comparators cfg) original replayed links) ↔
      Covered original replayed links := by
  constructor
  · intro h
    refine ⟨fun src hsrc hc => ?_, fun event hevent hc => ?_⟩
    · obtain ⟨r, hmem, event, hevent, hsrcId, heventId, -⟩ := h.matched src hsrc hc
      obtain ⟨src', -, event', -, -, -, hlink, -, hsrc', hevent'⟩ :=
        exists_linked_of_mem hr hmem hsrcId heventId
      -- links go by the id
      rw [IsPair, hsrc', hevent'] at hlink
      exact ⟨event, hevent, hlink⟩
    · obtain ⟨r, hmem, src, hsrc, hsrcId, heventId⟩ := h.paired event hevent hc
      obtain ⟨src', hmem', event', -, comparator, hcomp, hlink, -, hsrc', hevent'⟩ :=
        exists_linked_of_mem hr hmem hsrcId heventId
      rw [IsPair, hevent'] at hlink
      -- a row of two events was made by a comparator
      exact ⟨src', hmem', comparable_of_comparatorFor hcomp, hlink⟩
  · intro h
    refine ⟨fun src hsrc hc => ?_, fun event hevent hc => ?_⟩
    · obtain ⟨event, hevent, hlink⟩ := h.hasPartner src hsrc hc
      obtain ⟨r, hmem, hrest⟩ := exists_match_of_isPair hr hagree hsrc hc hevent hlink
      exact ⟨r, hmem, event, hevent, hrest⟩
    · obtain ⟨src, hsrc, hc', hlink⟩ := h.isPartner event hevent hc
      obtain ⟨r, hmem, hsrcId, heventId, -⟩ :=
        exists_match_of_isPair hr hagree hsrc hc' hevent hlink
      exact ⟨r, hmem, src, hsrc, hsrcId, heventId⟩

/-- **When "matched exactly" means matched exactly.** For every original, every list of replayed
events with distinct ids and every links: the verdict keeps its word exactly when nothing was left
without a partner, or when some pair was judged otherwise than `MATCH`, so that the verdict speaks
of differences. -/
theorem matchedExactly_of_saysMatched_iff (hr : (replayed.map Event.eventId).Nodup)
    (replay : Recording) :
    (SaysMatched (compareRun (comparators cfg) original replayed links) original replay →
      MatchedExactly original replayed (compareRun (comparators cfg) original replayed links)) ↔
      Covered original replayed links ∨ Disagrees cfg original replayed links := by
  rw [saysMatched_compareRun_iff hr]
  by_cases hagree : Disagrees cfg original replayed links
  · exact iff_of_true (fun h => absurd hagree h) (.inr hagree)
  · rw [imp_iff_right hagree, matchedExactly_iff_covered hr hagree, or_iff_left hagree]

end Compared

/-! ### A lost response -/

/-- A request with its response. -/
def answeredOnce : Recording where
  recordingId := "rec_1"
  events := [.brief .httpRequest "req" "a" 0, .brief .httpResponse "res" "a" 1]

/-- A replay with a response of its own is covered. -/
theorem matchedExactly_answeredOnce :
    let replayed := [Event.brief .httpResponse "res2" "z" 0]
    SaysMatched (compareRun (comparators {}) answeredOnce replayed [("res", "res2")])
        answeredOnce { recordingId := "rpl_1" } →
      MatchedExactly answeredOnce replayed
        (compareRun (comparators {}) answeredOnce replayed [("res", "res2")]) := by
  intro replayed
  refine (matchedExactly_of_saysMatched_iff (by decide) { recordingId := "rpl_1" }).mpr (.inl ?_)
  refine ⟨fun src hsrc hc => ?_, fun event hevent _ => ?_⟩
  · simp only [answeredOnce, List.mem_cons, List.not_mem_nil, or_false] at hsrc
    rcases hsrc with rfl | rfl
    · exact absurd hc (by decide)
    · exact ⟨_, List.mem_singleton_self _, rfl, by decide⟩
  · obtain rfl := List.mem_singleton.mp hevent
    exact ⟨_, List.mem_cons_of_mem _ (List.mem_singleton_self _), .inl rfl, rfl, by decide⟩

/-- A replay that lost everything is said to match. -/
theorem not_matchedExactly_lost :
    ¬∀ (cfg : Config) (original : Recording) (replayed : List Event) (links : Dict String String)
      (replay : Recording), (replayed.map Event.eventId).Nodup →
      SaysMatched (compareRun (comparators cfg) original replayed links) original replay →
        MatchedExactly original replayed
          (compareRun (comparators cfg) original replayed links) := by
  intro h
  have hsays : SaysMatched (compareRun (comparators {}) answeredOnce [] []) answeredOnce
      { recordingId := "rpl_1" } := by
    rw [saysMatched_iff]
    decide
  have hmatched := h {} answeredOnce [] [] { recordingId := "rpl_1" } List.nodup_nil hsays
  obtain ⟨-, -, event, hevent, -⟩ := hmatched.matched (.brief .httpResponse "res" "a" 1)
    (List.mem_cons_of_mem _ (List.mem_singleton_self _)) (.inl rfl)
  cases hevent

end InfraReplay
