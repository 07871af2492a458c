import Mathlib.Algebra.GroupWithZero.Nat
import InfraReplay.Comparison.Engine
import InfraReplay.Replay.Linking

/-!
# Every comparable event is accounted for once

`compare_run` on the links of `link_streams`, with the built-in comparators. The events it may
name are the responses and results (`Comparable`); the loop invariant is the set of consumed ids,
which is the image of the comparable originals under the links.

The guard `if replay_eid` means to skip an original without a link, but it also skips one whose
link is the empty string. `partner_eq_some_iff` states the guard as it is, and
`accounts_iff` shows that this is the only way an event is counted twice.
-/

namespace InfraReplay

open Python

/-! ### The built-in comparators -/

/-- The event types that have a comparator. -/
def Comparable (event : Event) : Prop :=
  event.eventType = .httpResponse ∨ event.eventType = .pgResult

instance : DecidablePred Comparable := fun event => by
  unfold Comparable
  infer_instance

variable {cfg : Config}

/-- The types with a comparator are those that are compared. -/
theorem comparatorFor_isSome (cfg : Config) (event : Event) :
    (comparatorFor (comparators cfg) event.eventType.value).isSome = decide (Comparable event) := by
  cases h : event.eventType <;>
    simp [Comparable, h, comparatorFor, comparators, httpComparator, postgresComparator,
      EventType.value]

/-- There is a comparator for a comparable event. -/
theorem exists_comparatorFor (cfg : Config) {event : Event} (h : Comparable event) :
    ∃ comparator, comparatorFor (comparators cfg) event.eventType.value = some comparator := by
  rw [← Option.isSome_iff_exists, comparatorFor_isSome, decide_eq_true h]

/-- There is none for any other. -/
theorem comparatorFor_eq_none (cfg : Config) {event : Event} (h : ¬Comparable event) :
    comparatorFor (comparators cfg) event.eventType.value = none := by
  rw [← Option.isNone_iff_eq_none, ← Option.isSome_eq_false_iff, comparatorFor_isSome,
    decide_eq_false h]

/-- What has a comparator is comparable. -/
theorem comparable_of_comparatorFor {cfg : Config} {event : Event} {comparator : ComparatorPlugin}
    (h : comparatorFor (comparators cfg) event.eventType.value = some comparator) :
    Comparable event := by
  by_contra hnot
  rw [comparatorFor_eq_none cfg hnot] at h
  cases h

/-- What every row of a comparator says about the pair it was given. -/
structure IsVerdict (eventType : String) (original replayed : Event) (r : ComparisonResult) :
    Prop where
  originalEventId : r.originalEventId = some original.eventId
  replayedEventId : r.replayedEventId = some replayed.eventId
  eventType : r.eventType = eventType
  category : r.category = .match ∨ r.category = .different ∨ r.category = .error

/-- What a comparator answers is a verdict on its two events. -/
theorem isVerdict_compareFields (eventType : String) (fields : List (String × Value × Value))
    (original replayed : Event) :
    IsVerdict eventType original replayed
      (compareFields eventType fields original replayed) := by
  unfold compareFields
  dsimp only
  split_ifs
  · exact ⟨rfl, rfl, rfl, Or.inr (Or.inr rfl)⟩
  · exact ⟨rfl, rfl, rfl, Or.inl rfl⟩
  · exact ⟨rfl, rfl, rfl, Or.inr (Or.inl rfl)⟩

/-- A registered comparator judges the pair it was given. -/
theorem isVerdict_compare {eventType : String} {comparator : ComparatorPlugin}
    (h : comparatorFor (comparators cfg) eventType = some comparator) (original replayed : Event) :
    IsVerdict eventType original replayed (comparator.compare original replayed) := by
  have htype : comparator.eventType = eventType := by
    have := List.find?_some h
    simpa using this
  have hmem : comparator ∈ comparators cfg := List.mem_of_find?_eq_some h
  rw [← htype]
  rcases List.mem_cons.mp hmem with rfl | hmem
  · exact isVerdict_compareFields _ _ _ _
  · rw [List.mem_singleton] at hmem
    subst hmem
    exact isVerdict_compareFields _ _ _ _

/-! ### Partners -/

/-- The partner of an original is the replayed event its link names, unless the link is empty. -/
theorem partner_eq_some_iff {replayed : List Event} {links : Dict String String}
    (h : (replayed.map Event.eventId).Nodup) {src event : Event} :
    partner (replayById replayed) links src = some event ↔
      event ∈ replayed ∧ links.get? src.eventId = some event.eventId ∧ event.eventId ≠ "" := by
  have hget : ∀ eid, (replayById replayed).get? eid = some event ↔
      event ∈ replayed ∧ event.eventId = eid := fun _ => Dict.get?_ofPairs_index h
  unfold partner
  -- by the link: none, the empty string, which is false, or the id of an event
  cases hl : links.get? src.eventId with
  | none => simp
  | some eid =>
    by_cases hempty : eid = ""
    · subst hempty
      simp only [if_true, Option.some.injEq]
      constructor
      · rintro ⟨⟩
      · rintro ⟨-, heq, hne⟩
        exact absurd heq.symm hne
    · simp only [hempty, if_false, hget, Option.some.injEq]
      constructor
      · rintro ⟨hmem, rfl⟩
        exact ⟨hmem, rfl, hempty⟩
      · rintro ⟨hmem, rfl, -⟩
        exact ⟨hmem, rfl⟩

/-! ### What a link joins -/

/-- An entry of the signatures comes from an event of the stream with that type. -/
theorem mem_signatures {events : List Event} {sig : Signature} {eventId : String}
    (h : (sig, eventId) ∈ signatures events) :
    ∃ event ∈ events, event.eventId = eventId ∧ sig.2.1 = event.eventType.value := by
  rw [signatures_eq] at h
  obtain ⟨pre, event, post, hl, rfl, rfl⟩ := mem_annotate.mp h
  have hmem : event ∈ events.sortBy Event.sequence := by simp [hl]
  exact ⟨event, List.mem_sortBy.mp hmem, rfl, rfl⟩

/-- The two ends of a link are events of one type. -/
theorem exists_of_get?_linkStreams {original replayed : List Event}
    (h : (original.map Event.eventId).Nodup) {eventId replayEid : String}
    (hlink : (linkStreams original replayed).get? eventId = some replayEid) :
    ∃ src ∈ original, ∃ event ∈ replayed, src.eventId = eventId ∧ event.eventId = replayEid ∧
      src.eventType = event.eventType := by
  obtain ⟨sig, ho, hr⟩ := (get?_linkStreams replayed h).mp hlink
  obtain ⟨src, hsrc, hsid, hstype⟩ := mem_signatures ho
  obtain ⟨event, hevent, heid, hetype⟩ := mem_signatures hr
  exact ⟨src, hsrc, event, hevent, hsid, heid,
    EventType.value_inj.mp (hstype.symm.trans hetype)⟩

/-- No two originals are linked to the same replayed event. -/
theorem linkStreams_injective {original replayed : List Event}
    (ho : (original.map Event.eventId).Nodup) (hr : (replayed.map Event.eventId).Nodup)
    {a b replayEid : String} (ha : (linkStreams original replayed).get? a = some replayEid)
    (hb : (linkStreams original replayed).get? b = some replayEid) : a = b := by
  obtain ⟨siga, hao, har⟩ := (get?_linkStreams replayed ho).mp ha
  obtain ⟨sigb, hbo, hbr⟩ := (get?_linkStreams replayed ho).mp hb
  have hsig : siga = sigb := congrArg Prod.fst
    (List.inj_on_of_nodup_map (nodup_map_snd_signatures hr) har hbr rfl)
  subst hsig
  -- one signature stands for one original
  have hida := (Dict.get?_eq_some_iff (nodup_keys_signatures original)).mpr hao
  have hidb := (Dict.get?_eq_some_iff (nodup_keys_signatures original)).mpr hbo
  rw [hida, Option.some.injEq] at hidb
  exact hidb

/-! ### The summary -/

/-- The categories in the order of their declaration. -/
def categories : List ComparisonCategory := [.match, .different, .missing, .new, .error]

/-- `{c.value: 0 for c in ComparisonCategory}`, then one more for every result. -/
def summarize (results : List ComparisonResult) : Dict String ℕ :=
  results.foldl (fun summary r =>
    summary.set r.category.value ((summary.get? r.category.value).getD 0 + 1))
    (categories.map fun c => (c.value, 0))

/-- The summary counts the results of each category. -/
theorem summarize_eq (results : List ComparisonResult) :
    summarize results =
      categories.map fun c => (c.value, results.countP fun r => r.category = c) := by
  -- from any counts on, a result raises the count of its category
  have hrun : ∀ (rs : List ComparisonResult) (count : ComparisonCategory → ℕ),
      rs.foldl (fun (summary : Dict String ℕ) r =>
          summary.set r.category.value ((summary.get? r.category.value).getD 0 + 1))
          (categories.map fun c => (c.value, count c)) =
        categories.map fun c => (c.value, count c + rs.countP fun r => r.category = c) := by
    intro rs
    induction rs with
    | nil => exact fun _ => rfl
    | cons r rs ih =>
      intro count
      have hset : Dict.set (categories.map fun c => (c.value, count c)) r.category.value
          ((Dict.get? (categories.map fun c => (c.value, count c)) r.category.value).getD 0 + 1) =
          categories.map fun c => (c.value, count c + if r.category = c then 1 else 0) := by
        cases r.category <;> rfl
      rw [List.foldl_cons, hset, ih]
      refine List.map_congr_left fun c _ => ?_
      rw [List.countP_cons]
      simp only [decide_eq_true_eq, Prod.mk.injEq, true_and]
      omega
  rw [summarize, hrun results fun _ => 0]
  simp only [Nat.zero_add]

/-- The sum of the counts. -/
def total (summary : Dict String ℕ) : ℕ := (summary.map Prod.snd).sum

/-- Counting one more under a key raises the sum by one. -/
private theorem total_set {summary : Dict String ℕ} {k : String} (h : k ∈ summary.keys) :
    total (summary.set k ((summary.get? k).getD 0 + 1)) = total summary + 1 := by
  induction summary with
  | nil => simp at h
  | cons p summary ih =>
    obtain ⟨k', n⟩ := p
    by_cases hk : k' = k
    · -- the count under the key goes up by one
      subst hk
      simp only [total, Dict.set, if_true, Dict.get?_cons, Option.getD_some, List.map_cons,
        List.sum_cons]
      omega
    · have hmem : k ∈ Dict.keys summary := by simpa [Dict.keys, Ne.symm hk] using h
      simp only [total] at ih ⊢
      simp only [Dict.set, hk, if_false, Dict.get?_cons, List.map_cons, List.sum_cons, ih hmem]
      omega

/-- Every result is counted once. -/
theorem total_summarize (results : List ComparisonResult) :
    total (summarize results) = results.length := by
  -- the keys are there from the start and stay, so each result raises the sum by one
  have hrun : ∀ (rs : List ComparisonResult) (summary : Dict String ℕ),
      (∀ c : ComparisonCategory, c.value ∈ summary.keys) →
      total (rs.foldl (fun summary r =>
        summary.set r.category.value ((summary.get? r.category.value).getD 0 + 1)) summary) =
        total summary + rs.length := by
    intro rs
    induction rs with
    | nil => simp
    | cons r rs ih =>
      intro summary hkeys
      rw [List.foldl_cons, ih, total_set (hkeys r.category), List.length_cons]
      · omega
      · intro c
        rw [Dict.keys_set_of_mem (hkeys r.category)]
        exact hkeys c
  have hinit : ∀ c : ComparisonCategory,
      c.value ∈ Dict.keys (categories.map fun c => (c.value, 0)) := by
    intro c
    cases c <;> decide
  rw [summarize, hrun results _ hinit]
  simp [total, categories]

/-! ### The account -/

/-- How many comparable originals are linked. -/
def linkedPairs (original : List Event) (links : Dict String String) : ℕ :=
  original.countP fun e => Comparable e ∧ (links.get? e.eventId).isSome = true

/-- The link of an original that the walk follows. -/
def followed (links : Dict String String) (eventId : String) : Option String :=
  (links.get? eventId).filter (· ≠ "")

section Account

variable {original replayed : List Event}

/-- A comparable original consumes the event its link names, unless the link is empty. -/
theorem consumes_eq (ho : (original.map Event.eventId).Nodup)
    (hr : (replayed.map Event.eventId).Nodup) (src : Event) :
    consumes (comparators cfg) replayed (linkStreams original replayed) src =
      if Comparable src then followed (linkStreams original replayed) src.eventId else none := by
  by_cases hc : Comparable src
  · obtain ⟨comparator, hcomp⟩ := exists_comparatorFor cfg hc
    rw [consumes, hcomp, Option.bind_some, if_pos hc, followed]
    apply Option.ext
    intro eid
    rw [Option.map_eq_some_iff, Option.filter_eq_some_iff]
    constructor
    · rintro ⟨event, hp, rfl⟩
      obtain ⟨-, hlink, hne⟩ := (partner_eq_some_iff hr).mp hp
      exact ⟨hlink, by simpa using hne⟩
    · -- what a link names is among the replayed events
      rintro ⟨hlink, hne⟩
      obtain ⟨-, -, event, hevent, -, rfl, -⟩ := exists_of_get?_linkStreams ho hlink
      exact ⟨event, (partner_eq_some_iff hr).mpr ⟨hevent, hlink, by simpa using hne⟩, rfl⟩
  · rw [consumes, comparatorFor_eq_none cfg hc, Option.bind_none, if_neg hc]

/-- The ids the walk consumes, in the order it consumes them. -/
def consumed (cfg : Config) (original replayed : List Event) : List String :=
  original.filterMap (consumes (comparators cfg) replayed (linkStreams original replayed))

/-- A replayed event is consumed when a compared event of the source is linked to it, by an id that
is not empty. -/
theorem mem_consumed (ho : (original.map Event.eventId).Nodup)
    (hr : (replayed.map Event.eventId).Nodup) {eid : String} :
    eid ∈ consumed cfg original replayed ↔
      ∃ src ∈ original, Comparable src ∧
        (linkStreams original replayed).get? src.eventId = some eid ∧ eid ≠ "" := by
  simp only [consumed, List.mem_filterMap, consumes_eq ho hr, followed]
  refine exists_congr fun src => and_congr_right fun _ => ?_
  by_cases hc : Comparable src <;> simp [hc, Option.filter_eq_some_iff]

/-- No replayed event is consumed twice. -/
theorem nodup_consumed (ho : (original.map Event.eventId).Nodup)
    (hr : (replayed.map Event.eventId).Nodup) : (consumed cfg original replayed).Nodup := by
  have hpair : original.Pairwise fun a b => a.eventId ≠ b.eventId :=
    List.pairwise_map.mp ho
  refine List.pairwise_filterMap.mpr (hpair.imp ?_)
  intro a b hab eida ha eidb hb heq
  subst heq
  -- two originals that consume one event are linked to it both
  rw [consumes_eq ho hr] at ha hb
  split_ifs at ha
  split_ifs at hb
  rw [followed, Option.filter_eq_some_iff] at ha hb
  exact hab (linkStreams_injective ho hr ha.1 hb.1)

/-- The replayed events no original consumes. -/
def unconsumed (cfg : Config) (original replayed : List Event) : List Event :=
  replayed.filter fun event =>
    event.eventId ∉ consumed cfg original replayed ∧
      (comparatorFor (comparators cfg) event.eventType.value).isSome

/-- The rest of the replayed events that are compared are not consumed. -/
theorem mem_unconsumed {event : Event} :
    event ∈ unconsumed cfg original replayed ↔
      event ∈ replayed ∧ event.eventId ∉ consumed cfg original replayed ∧ Comparable event := by
  simp [unconsumed, comparatorFor_isSome]

/-- The consumed ids and the unconsumed events are the comparable replayed events. -/
theorem consumed_append_unconsumed (cfg : Config) (ho : (original.map Event.eventId).Nodup)
    (hr : (replayed.map Event.eventId).Nodup) :
    (consumed cfg original replayed ++
        (unconsumed cfg original replayed).map Event.eventId).Perm
      ((replayed.filter Comparable).map Event.eventId) := by
  have hsub : ∀ p : Event → Bool, ((replayed.filter p).map Event.eventId).Nodup := fun p =>
    hr.sublist ((List.filter_sublist).map _)
  have hdisj : List.Disjoint (consumed cfg original replayed)
      ((unconsumed cfg original replayed).map Event.eventId) := by
    intro eid hmem hmem'
    obtain ⟨event, hevent, rfl⟩ := List.mem_map.mp hmem'
    exact (mem_unconsumed.mp hevent).2.1 hmem
  refine (List.perm_ext_iff_of_nodup ?_ (hsub _)).mpr fun eid => ?_
  · exact List.nodup_append'.mpr ⟨nodup_consumed ho hr, hsub _, hdisj⟩
  · rw [List.mem_append, List.mem_map, List.mem_map]
    constructor
    · rintro (hmem | ⟨event, hevent, rfl⟩)
      · -- a consumed id is linked, and a link joins events of one type
        obtain ⟨src, hsrc, hcomp, hlink, -⟩ := (mem_consumed ho hr).mp hmem
        obtain ⟨src', hsrc', event, hevent, hid, rfl, htype⟩ :=
          exists_of_get?_linkStreams ho hlink
        have hsame : src' = src := List.inj_on_of_nodup_map ho hsrc' hsrc hid
        subst hsame
        refine ⟨event, List.mem_filter.mpr ⟨hevent, decide_eq_true ?_⟩, rfl⟩
        rw [Comparable, ← htype]
        exact hcomp
      · obtain ⟨hevent, -, hcomp⟩ := mem_unconsumed.mp hevent
        exact ⟨event, List.mem_filter.mpr ⟨hevent, by simpa using hcomp⟩, rfl⟩
    · rintro ⟨event, hevent, rfl⟩
      obtain ⟨hevent, hcomp⟩ := List.mem_filter.mp hevent
      by_cases hmem : event.eventId ∈ consumed cfg original replayed
      · exact Or.inl hmem
      · exact Or.inr ⟨event, mem_unconsumed.mpr ⟨hevent, hmem, by simpa using hcomp⟩, rfl⟩

end Account

/-- `results` accounts for the comparable events of both sides. -/
structure Accounts (original : Recording) (replayed : List Event) (links : Dict String String)
    (results : List ComparisonResult) : Prop where
  /-- Every comparable original is named by exactly one result. -/
  original_once : ∀ e ∈ original.events, Comparable e →
    results.countP (fun r => r.originalEventId = some e.eventId) = 1
  /-- Every comparable replayed event is named by exactly one result. -/
  replayed_once : ∀ e ∈ replayed, Comparable e →
    results.countP (fun r => r.replayedEventId = some e.eventId) = 1
  /-- A result that names both sides judges two events of one type. -/
  pair : ∀ r ∈ results, ∀ o n, r.originalEventId = some o → r.replayedEventId = some n →
    (r.category = .match ∨ r.category = .different ∨ r.category = .error) ∧
      ∃ e ∈ original.events, ∃ e' ∈ replayed,
        e.eventId = o ∧ e'.eventId = n ∧ e.eventType = e'.eventType
  only_original : ∀ r ∈ results, ∀ o, r.originalEventId = some o → r.replayedEventId = none →
    r.category = .missing
  only_replayed : ∀ r ∈ results, ∀ n, r.originalEventId = none → r.replayedEventId = some n →
    r.category = .new
  /-- No request or query of the original is named. -/
  named_original : ∀ r ∈ results, ∀ o, r.originalEventId = some o →
    ∃ e ∈ original.events, e.eventId = o ∧ Comparable e
  /-- No request or query of the replay is named. -/
  named_replayed : ∀ r ∈ results, ∀ n, r.replayedEventId = some n →
    ∃ e ∈ replayed, e.eventId = n ∧ Comparable e
  total_summary : total (summarize results) =
    original.events.countP (fun e => Comparable e) + replayed.countP (fun e => Comparable e) -
      linkedPairs original.events links

section Account

variable {original : Recording} {replayed : List Event}

/-- What a row is: a missing original, a verdict on a linked pair, or a new replayed event. -/
theorem compareRun_cases {links : Dict String String} {r : ComparisonResult}
    (hr : (replayed.map Event.eventId).Nodup)
    (h : r ∈ compareRun (comparators cfg) original replayed links) :
    (∃ src, r = missingResult (replayIdOf replayed) src) ∨
      (∃ src ∈ original.events, ∃ event ∈ replayed,
        links.get? src.eventId = some event.eventId ∧
          IsVerdict src.eventType.value src event r) ∨
      ∃ event, r = newResult (replayIdOf replayed) event := by
  rw [compareRun_eq, List.mem_append] at h
  rcases h with h | h
  · -- the row of an original: missing, or judged against its partner
    obtain ⟨src, hsrc, hres⟩ := List.mem_filterMap.mp h
    rw [resultFor, Option.map_eq_some_iff] at hres
    obtain ⟨comparator, hcomp, hrow⟩ := hres
    cases hp : partner (replayById replayed) links src with
    | none =>
      rw [hp] at hrow
      exact Or.inl ⟨src, hrow.symm⟩
    | some event =>
      rw [hp] at hrow
      obtain ⟨hmem, hlink, -⟩ := (partner_eq_some_iff hr).mp hp
      subst hrow
      exact Or.inr (Or.inl ⟨src, hsrc, event, hmem, hlink, isVerdict_compare hcomp src event⟩)
  · obtain ⟨event, -, rfl⟩ := List.mem_map.mp h
    exact Or.inr (Or.inr ⟨event, rfl⟩)

/-- The original side of the rows, read off row by row. -/
private theorem originalEventId_resultFor {links : Dict String String} (src : Event) :
    (resultFor (comparators cfg) replayed links src).bind ComparisonResult.originalEventId =
      if Comparable src then some src.eventId else none := by
  by_cases hc : Comparable src
  · obtain ⟨comparator, hcomp⟩ := exists_comparatorFor cfg hc
    rw [resultFor, hcomp, Option.map_some, Option.bind_some, if_pos hc]
    cases hp : partner (replayById replayed) links src with
    | none => rfl
    | some event => exact (isVerdict_compare hcomp src event).originalEventId
  · rw [resultFor, comparatorFor_eq_none cfg hc, Option.map_none, Option.bind_none, if_neg hc]

/-- The replayed side of the rows, read off row by row. -/
private theorem replayedEventId_resultFor {links : Dict String String} (src : Event) :
    (resultFor (comparators cfg) replayed links src).bind ComparisonResult.replayedEventId =
      consumes (comparators cfg) replayed links src := by
  cases hcomp : comparatorFor (comparators cfg) src.eventType.value with
  | none => simp [resultFor, consumes, hcomp]
  | some comparator =>
    rw [resultFor, consumes, hcomp, Option.map_some, Option.bind_some, Option.bind_some]
    cases hp : partner (replayById replayed) links src with
    | none => rfl
    | some event => exact (isVerdict_compare hcomp src event).replayedEventId

/-- The rows name the comparable originals, each once and in order. -/
theorem originalEventIds_compareRun (cfg : Config) (original : Recording) (replayed : List Event)
    (links : Dict String String) :
    (compareRun (comparators cfg) original replayed links).filterMap
        ComparisonResult.originalEventId =
      (original.events.filter Comparable).map Event.eventId := by
  rw [compareRun_eq, List.filterMap_append, List.filterMap_filterMap, List.filterMap_map]
  have hnew : ∀ rows : List Event, rows.filterMap
      (ComparisonResult.originalEventId ∘ newResult (replayIdOf replayed)) = [] := by
    intro rows
    exact List.filterMap_eq_nil_iff.mpr fun _ _ => rfl
  rw [hnew, List.append_nil, ← List.filterMap_eq_map, List.filterMap_filter]
  refine List.filterMap_congr fun src _ => ?_
  rw [originalEventId_resultFor]
  simp

/-- The rows name the comparable replayed events, each once. -/
theorem replayedEventIds_compareRun (cfg : Config)
    (ho : (original.events.map Event.eventId).Nodup)
    (hr : (replayed.map Event.eventId).Nodup) :
    ((compareRun (comparators cfg) original replayed
        (linkStreams original.events replayed)).filterMap ComparisonResult.replayedEventId).Perm
      ((replayed.filter Comparable).map Event.eventId) := by
  rw [compareRun_eq, List.filterMap_append, List.filterMap_filterMap, List.filterMap_map]
  -- the rows of the source name what they consume, the others their own event
  have hold : original.events.filterMap (fun src =>
      (resultFor (comparators cfg) replayed (linkStreams original.events replayed) src).bind
        ComparisonResult.replayedEventId) = consumed cfg original.events replayed :=
    List.filterMap_congr fun src _ => replayedEventId_resultFor src
  have hnew : ∀ rows : List Event, rows.filterMap
      (ComparisonResult.replayedEventId ∘ newResult (replayIdOf replayed)) =
        rows.map Event.eventId := by
    intro rows
    rw [← List.filterMap_eq_map]
    exact List.filterMap_congr fun _ _ => rfl
  rw [hold, hnew]
  exact consumed_append_unconsumed cfg ho hr

/-- The comparable originals whose link is the empty string. -/
def emptyLinks (original : List Event) (links : Dict String String) : ℕ :=
  original.countP fun e => Comparable e ∧ links.get? e.eventId = some ""

/-- A linked comparable original consumes its partner or has an empty link. -/
theorem linkedPairs_eq (cfg : Config) (ho : (original.events.map Event.eventId).Nodup)
    (hr : (replayed.map Event.eventId).Nodup) :
    linkedPairs original.events (linkStreams original.events replayed) =
      (consumed cfg original.events replayed).length +
        emptyLinks original.events (linkStreams original.events replayed) := by
  have hcons : ∀ src, consumes (comparators cfg) replayed
      (linkStreams original.events replayed) src =
        if Comparable src then followed (linkStreams original.events replayed) src.eventId
        else none := consumes_eq ho hr
  rw [consumed, linkedPairs, emptyLinks]
  -- what is left is a count over the originals, whatever the links
  generalize linkStreams original.events replayed = links at hcons
  generalize original.events = events
  induction events with
  | nil => rfl
  | cons src events ih =>
    rw [List.countP_cons, List.countP_cons, ih, List.filterMap_cons, hcons src]
    by_cases hc : Comparable src
    · cases hl : links.get? src.eventId with
      | none => simp [hc, hl, followed]
      | some eid =>
        by_cases hempty : eid = ""
        · simp [hc, hl, followed, hempty, Option.filter]
          omega
        · simp [hc, hl, followed, hempty, Option.filter]
          omega
    · simp [hc]

/-- The number of rows, both sides counted, falls short of the comparable events by the rows that
name two of them. -/
theorem length_compareRun (cfg : Config) (ho : (original.events.map Event.eventId).Nodup)
    (hr : (replayed.map Event.eventId).Nodup) :
    (compareRun (comparators cfg) original replayed
        (linkStreams original.events replayed)).length +
        (consumed cfg original.events replayed).length =
      original.events.countP (fun e => Comparable e) +
        replayed.countP (fun e => Comparable e) := by
  -- one row for each compared event of the source
  have hrows : (original.events.filterMap (resultFor (comparators cfg) replayed
      (linkStreams original.events replayed))).length =
        original.events.countP (fun e => Comparable e) := by
    rw [List.length_filterMap_eq_countP]
    refine List.countP_congr fun src _ => ?_
    rw [resultFor, Option.isSome_map, comparatorFor_isSome]
  -- and one for each replayed event that was not consumed
  have hsplit := (consumed_append_unconsumed cfg ho hr).length_eq
  rw [List.length_append, List.length_map, List.length_map, ← List.countP_eq_length_filter]
    at hsplit
  rw [compareRun_eq, List.length_append, List.length_map, hrows]
  have hrest : (replayed.filter fun event => event.eventId ∉ original.events.filterMap
      (consumes (comparators cfg) replayed (linkStreams original.events replayed)) ∧
        (comparatorFor (comparators cfg) event.eventType.value).isSome).length =
      (unconsumed cfg original.events replayed).length := rfl
  rw [hrest]
  omega

private theorem countP_eq_count_filterMap {f : ComparisonResult → Option String}
    (results : List ComparisonResult) (a : String) :
    results.countP (fun r => f r = some a) = (results.filterMap f).count a := by
  induction results with
  | nil => rfl
  | cons r results ih =>
    rw [List.countP_cons, ih, List.filterMap_cons]
    cases hf : f r with
    | none => simp
    | some b => simp [List.count_cons]

/-- In a list of distinct ids, the id of a comparable event occurs once. -/
private theorem count_comparable {events : List Event} (h : (events.map Event.eventId).Nodup)
    {e : Event} (he : e ∈ events) (hc : Comparable e) :
    ((events.filter Comparable).map Event.eventId).count e.eventId = 1 := by
  refine List.count_eq_one_of_mem (h.sublist ((List.filter_sublist).map _)) ?_
  exact List.mem_map_of_mem (List.mem_filter.mpr ⟨he, by simpa using hc⟩)

private theorem mem_comparable {events : List Event} {eid : String}
    (h : eid ∈ (events.filter Comparable).map Event.eventId) :
    ∃ e ∈ events, e.eventId = eid ∧ Comparable e := by
  obtain ⟨e, he, rfl⟩ := List.mem_map.mp h
  obtain ⟨hmem, hc⟩ := List.mem_filter.mp he
  exact ⟨e, hmem, rfl, by simpa using hc⟩

/-- A row that names both sides is the verdict on a linked pair of one type. -/
private theorem pair_row (ho : (original.events.map Event.eventId).Nodup)
    (hr : (replayed.map Event.eventId).Nodup) {r : ComparisonResult}
    (hrow : r ∈ compareRun (comparators cfg) original replayed
      (linkStreams original.events replayed)) {o n : String}
    (hro : r.originalEventId = some o) (hrn : r.replayedEventId = some n) :
    (r.category = .match ∨ r.category = .different ∨ r.category = .error) ∧
      ∃ e ∈ original.events, ∃ e' ∈ replayed,
        e.eventId = o ∧ e'.eventId = n ∧ e.eventType = e'.eventType := by
  obtain ⟨src, rfl⟩ | ⟨src, hsrc, event, hevent, hlink, hv⟩ | ⟨event, rfl⟩ :=
    compareRun_cases hr hrow
  · cases hrn
  · rw [hv.originalEventId, Option.some.injEq] at hro
    rw [hv.replayedEventId, Option.some.injEq] at hrn
    refine ⟨hv.category, src, hsrc, event, hevent, hro, hrn, ?_⟩
    -- the link joins two events of one type, and ids are distinct on both sides
    obtain ⟨src', hsrc', event', hevent', hid, hid', htype⟩ := exists_of_get?_linkStreams ho hlink
    rwa [List.inj_on_of_nodup_map ho hsrc' hsrc hid,
      List.inj_on_of_nodup_map hr hevent' hevent hid'] at htype
  · cases hro

/-- A row that names one side only is a `MISSING` or a `NEW` one. -/
private theorem one_sided_row {links : Dict String String}
    (hr : (replayed.map Event.eventId).Nodup) {r : ComparisonResult}
    (hrow : r ∈ compareRun (comparators cfg) original replayed links) :
    (r.replayedEventId = none → r.category = .missing) ∧
      (r.originalEventId = none → r.category = .new) := by
  obtain ⟨src, rfl⟩ | ⟨src, -, event, -, -, hv⟩ | ⟨event, rfl⟩ := compareRun_cases hr hrow
  · exact ⟨fun _ => rfl, nofun⟩
  · rw [hv.originalEventId, hv.replayedEventId]
    exact ⟨nofun, nofun⟩
  · exact ⟨nofun, fun _ => rfl⟩

/-- The counts of the summary exceed what the claim of the account allows by the comparable
originals whose link is empty. -/
private theorem total_summary_iff (cfg : Config) (ho : (original.events.map Event.eventId).Nodup)
    (hr : (replayed.map Event.eventId).Nodup) :
    total (summarize (compareRun (comparators cfg) original replayed
        (linkStreams original.events replayed))) =
        original.events.countP (fun e => Comparable e) + replayed.countP (fun e => Comparable e) -
          linkedPairs original.events (linkStreams original.events replayed) ↔
      ∀ e ∈ original.events, Comparable e →
        (linkStreams original.events replayed).get? e.eventId ≠ some "" := by
  have hempty : emptyLinks original.events (linkStreams original.events replayed) = 0 ↔
      ∀ e ∈ original.events, Comparable e →
        (linkStreams original.events replayed).get? e.eventId ≠ some "" := by
    rw [emptyLinks, List.countP_eq_zero]
    simp
  have hle : linkedPairs original.events (linkStreams original.events replayed) ≤
      original.events.countP (fun e => Comparable e) := by
    apply List.countP_mono_left
    intro e _ he
    simp only [decide_eq_true_eq] at he ⊢
    exact he.1
  -- the rows are all events less the consumed ones, which are the pairs with a real id
  have hlen := length_compareRun cfg ho hr
  have hpairs := linkedPairs_eq cfg ho hr
  rw [← hempty, total_summarize]
  omega

/-- **The account.** On the links of `link_streams`, `compare_run` accounts for every comparable
event of both sides exactly once, if and only if no comparable original is linked to a replayed
event whose id is the empty string. -/
theorem accounts_iff (ho : (original.events.map Event.eventId).Nodup)
    (hr : (replayed.map Event.eventId).Nodup) :
    Accounts original replayed (linkStreams original.events replayed)
        (compareRun (comparators cfg) original replayed
          (linkStreams original.events replayed)) ↔
      ∀ e ∈ original.events, Comparable e →
        (linkStreams original.events replayed).get? e.eventId ≠ some "" := by
  rw [← total_summary_iff cfg ho hr]
  constructor
  · exact fun h => h.total_summary
  · -- apart from the summary the account holds on any links
    intro htotal
    constructor
    case original_once =>
      intro e he hc
      rw [countP_eq_count_filterMap, originalEventIds_compareRun]
      exact count_comparable ho he hc
    case replayed_once =>
      intro e he hc
      rw [countP_eq_count_filterMap, (replayedEventIds_compareRun cfg ho hr).count_eq]
      exact count_comparable hr he hc
    -- a row with two ids is of a linked pair, a row with one is of the side that is alone
    case pair => exact fun r hrow o n hro hrn => pair_row ho hr hrow hro hrn
    case only_original => exact fun r hrow o _ hrn => (one_sided_row hr hrow).1 hrn
    case only_replayed => exact fun r hrow n hro _ => (one_sided_row hr hrow).2 hro
    case named_original =>
      intro r hrow o hro
      apply mem_comparable
      rw [← originalEventIds_compareRun cfg original replayed
        (linkStreams original.events replayed)]
      exact List.mem_filterMap.mpr ⟨r, hrow, hro⟩
    case named_replayed =>
      intro r hrow n hrn
      apply mem_comparable
      rw [← (replayedEventIds_compareRun cfg ho hr).mem_iff]
      exact List.mem_filterMap.mpr ⟨r, hrow, hrn⟩
    case total_summary => exact htotal

end Account

/-- A replay with one statement more than the original is accounted for. -/
theorem accounts_extra_statement :
    let original : Recording :=
      { recordingId := "rec_1"
        events := [.brief .httpRequest "req" "a" 0, .brief .httpResponse "res" "a" 1] }
    let replayed := [Event.brief .httpRequest "req2" "z" 0, .brief .pgResult "rst2" "z" 1,
      .brief .httpResponse "res2" "z" 2]
    Accounts original replayed (linkStreams original.events replayed)
      (compareRun (comparators {}) original replayed (linkStreams original.events replayed)) :=
  (accounts_iff (by decide) (by decide)).mpr (by decide)

/-- A replayed response whose id is the empty string is counted twice, once as `MISSING` and once
as `NEW`, although it is linked. -/
theorem not_accounts_empty_id :
    ¬ ∀ (cfg : Config) (original : Recording) (replayed : List Event),
      (original.events.map Event.eventId).Nodup → (replayed.map Event.eventId).Nodup →
        Accounts original replayed (linkStreams original.events replayed)
          (compareRun (comparators cfg) original replayed
            (linkStreams original.events replayed)) := by
  intro h
  have htotal := (h {} { recordingId := "rec_1", events := [.brief .httpResponse "res" "a" 0] }
    [.brief .httpResponse "" "z" 0] (by decide) (by decide)).total_summary
  revert htotal
  decide

end InfraReplay
