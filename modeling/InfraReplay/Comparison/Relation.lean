import InfraReplay.Comparison.Genuine
import InfraReplay.Dashboard.Verdict

/-!
# The comparison as a relation between runs

`compare_run` judges one replay against one original. What several comparisons say together rests on
two facts: links compose and can be read backwards (`linkStreams_comp`, `linkStreams_swap`), and the
equality behind a `MATCH` is symmetric and transitive (`Alike`).

* `matchedExactly_chain`: exact matches compose along a chain of replays, and two replays that both
  match one original match each other.
* `compareRun_swap_perm`: comparing the other way round gives the mirrored results.
-/

namespace InfraReplay

open Python

variable {cfg : Config}

/-! ### Links -/

section Links

variable {a b c : List Event}

/-- Links compose. -/
theorem linkStreams_comp (ha : (a.map Event.eventId).Nodup) (hb : (b.map Event.eventId).Nodup)
    {x y z : String} (hxy : (linkStreams a b).get? x = some y)
    (hyz : (linkStreams b c).get? y = some z) : (linkStreams a c).get? x = some z := by
  obtain ⟨sig, hx, hy⟩ := (get?_linkStreams b ha).mp hxy
  obtain ⟨sig', hy', hz⟩ := (get?_linkStreams c hb).mp hyz
  -- the event in the middle has one signature
  have heq := List.inj_on_of_nodup_map (nodup_map_snd_signatures hb) hy hy' rfl
  obtain rfl : sig = sig' := congrArg Prod.fst heq
  exact (get?_linkStreams c ha).mpr ⟨sig, hx, hz⟩

/-- The links of the comparison the other way round are the links read backwards. -/
theorem linkStreams_swap (ha : (a.map Event.eventId).Nodup) (hb : (b.map Event.eventId).Nodup)
    {x y : String} :
    (linkStreams b a).get? y = some x ↔ (linkStreams a b).get? x = some y := by
  rw [get?_linkStreams a hb, get?_linkStreams b ha]
  exact exists_congr fun sig => and_comm

/-- Only its type says whether an event is compared. -/
theorem Comparable.congr {e e' : Event} (h : Comparable e) (htype : e.eventType = e'.eventType) :
    Comparable e' := by
  rw [Comparable, ← htype]
  exact h

end Links

/-! ### Pairs that match -/

/-- The entries that the comparator of an event type looks at. -/
def comparedFields : EventType → List ComparedField
  | .httpResponse => httpFields
  | .pgResult => postgresFields
  | _ => []

/-- The two events are equal in every compared entry. -/
def Alike (cfg : Config) (e e' : Event) : Prop :=
  ∀ f ∈ comparedFields e.eventType, (f.view cfg e).eq (f.view cfg e') = true

/-- What is compared is well formed. -/
theorem ComparedField.wf_view (f : ComparedField) (e : Event) : (f.view cfg e).wf = true := by
  rw [ComparedField.view]
  split_ifs
  · exact wf_normalize (e.payload.wf_getD f.key)
  · exact e.payload.wf_getD f.key

/-- Alike is symmetric. -/
theorem Alike.symm {e e' : Event} (htype : e.eventType = e'.eventType) (h : Alike cfg e e') :
    Alike cfg e' e := by
  intro f hf
  rw [← htype] at hf
  exact Value.eq_symm (f.wf_view e) (f.wf_view e') (h f hf)

/-- Alike is transitive. -/
theorem Alike.trans {e e' e'' : Event} (htype : e.eventType = e'.eventType)
    (h : Alike cfg e e') (h' : Alike cfg e' e'') : Alike cfg e e'' := fun f hf =>
  Value.eq_trans (f.wf_view e) (f.wf_view e') (f.wf_view e'') (h f hf) (h' f (htype ▸ hf))

/-- What the comparator of an event does: it looks at the fields of the type. -/
theorem compare_eq {e : Event} {comparator : ComparatorPlugin}
    (h : comparatorFor (comparators cfg) e.eventType.value = some comparator) (e' : Event) :
    comparator.compare e e' = compareFields e.eventType.value
      ((comparedFields e.eventType).map fun f => (f.key, f.view cfg e, f.view cfg e')) e e' := by
  cases htype : e.eventType with
  | httpResponse =>
    rw [htype] at h
    obtain rfl : httpComparator cfg = comparator := Option.some.inj h
    rfl
  | pgResult =>
    rw [htype] at h
    obtain rfl : postgresComparator cfg = comparator := Option.some.inj h
    rfl
  | httpRequest =>
    rw [htype] at h
    cases h
  | pgQuery =>
    rw [htype] at h
    cases h

/-- A `MATCH`: the replay carries no error and the compared entries are equal. -/
theorem category_compare_iff {e e' : Event} {comparator : ComparatorPlugin}
    (h : comparatorFor (comparators cfg) e.eventType.value = some comparator) :
    (comparator.compare e e').category = .match ↔
      e'.payload.has "error" = false ∧ Alike cfg e e' := by
  rw [compare_eq h, category_compareFields_views_iff]
  rfl

/-! ### Exact matches -/

section Exact

variable {original : Recording} {replayed : List Event}

/-- Exact matching, seen in the events: everything comparable is paired, and every pair matches. -/
theorem matchedExactly_iff (ho : (original.events.map Event.eventId).Nodup)
    (hr : (replayed.map Event.eventId).Nodup) {links : Dict String String} :
    MatchedExactly original replayed (compareRun (comparators cfg) original replayed links) ↔
      Covered original replayed links ∧ ¬Disagrees cfg original replayed links := by
  constructor
  · intro h
    have hagree : ¬Disagrees cfg original replayed links := by
      rintro ⟨src, hsrc, event, hevent, comparator, hcomp, hlink, hne⟩
      have hc : Comparable src := comparable_of_comparatorFor hcomp
      obtain ⟨r, hmem, event', hevent', hsrcId, heventId, hmatch⟩ := h.matched src hsrc hc
      obtain ⟨src₁, hsrc₁, event₁, hevent₁, comparator₁, hcomp₁, hlink₁, rfl, hid, -⟩ :=
        exists_linked_of_mem hr hmem hsrcId heventId
      -- the row that matches is the row of this pair
      obtain rfl := List.inj_on_of_nodup_map ho hsrc₁ hsrc hid
      have hsame := Option.some.inj (hlink₁.1.symm.trans hlink.1)
      obtain rfl := List.inj_on_of_nodup_map hr hevent₁ hevent hsame
      obtain rfl := Option.some.inj (hcomp₁.symm.trans hcomp)
      exact hne hmatch
    exact ⟨(matchedExactly_iff_covered hr hagree).mp h, hagree⟩
  · rintro ⟨hcovered, hagree⟩
    exact (matchedExactly_iff_covered hr hagree).mpr hcovered

/-- Every linked pair of comparable events matches. -/
theorem not_disagrees_iff {links : Dict String String} :
    ¬Disagrees cfg original replayed links ↔ ∀ src ∈ original.events, Comparable src →
      ∀ event ∈ replayed, IsPair links src event →
        event.payload.has "error" = false ∧ Alike cfg src event := by
  constructor
  · intro h src hsrc hc event hevent hlink
    obtain ⟨comparator, hcomp⟩ := exists_comparatorFor cfg hc
    rw [← category_compare_iff hcomp]
    by_contra hne
    exact h ⟨src, hsrc, event, hevent, comparator, hcomp, hlink, hne⟩
  · rintro h ⟨src, hsrc, event, hevent, comparator, hcomp, hlink, hne⟩
    have hc := comparable_of_comparatorFor hcomp
    exact hne ((category_compare_iff hcomp).mpr (h src hsrc hc event hevent hlink))

end Exact

/-- The two streams agree: the links pair all their comparable events, and the pairs are alike. -/
structure SameRun (cfg : Config) (a b : List Event) : Prop where
  hasPartner : ∀ src ∈ a, Comparable src →
    ∃ event ∈ b, (linkStreams a b).get? src.eventId = some event.eventId
  isPartner : ∀ event ∈ b, Comparable event →
    ∃ src ∈ a, (linkStreams a b).get? src.eventId = some event.eventId
  alike : ∀ src ∈ a, Comparable src → ∀ event ∈ b,
    (linkStreams a b).get? src.eventId = some event.eventId → Alike cfg src event

/-- Every comparable event has an id that counts, and carries no error. -/
def Faultless (b : List Event) : Prop :=
  ∀ event ∈ b, Comparable event → event.eventId ≠ "" ∧ event.payload.has "error" = false

instance (b : List Event) : Decidable (Faultless b) := by
  unfold Faultless
  infer_instance

section Streams

variable {a b c : List Event}

/-- Linked events have one type. -/
theorem eventType_of_link (ha : (a.map Event.eventId).Nodup) (hb : (b.map Event.eventId).Nodup)
    {src event : Event} (hsrc : src ∈ a) (hevent : event ∈ b)
    (h : (linkStreams a b).get? src.eventId = some event.eventId) :
    src.eventType = event.eventType := by
  obtain ⟨src', hsrc', event', hevent', hid, hid', htype⟩ := exists_of_get?_linkStreams ha h
  obtain rfl := List.inj_on_of_nodup_map ha hsrc' hsrc hid
  obtain rfl := List.inj_on_of_nodup_map hb hevent' hevent hid'
  exact htype

namespace SameRun

/-- Being the same run is symmetric. -/
theorem symm (ha : (a.map Event.eventId).Nodup) (hb : (b.map Event.eventId).Nodup)
    (h : SameRun cfg a b) : SameRun cfg b a := by
  refine ⟨fun event hevent hc => ?_, fun src hsrc hc => ?_, ?_⟩
  · obtain ⟨src, hsrc, hlink⟩ := h.isPartner event hevent hc
    exact ⟨src, hsrc, (linkStreams_swap ha hb).mpr hlink⟩
  · obtain ⟨event, hevent, hlink⟩ := h.hasPartner src hsrc hc
    exact ⟨event, hevent, (linkStreams_swap ha hb).mpr hlink⟩
  · intro event hevent hc src hsrc hlink
    have hback := (linkStreams_swap ha hb).mp hlink
    have htype := eventType_of_link ha hb hsrc hevent hback
    exact (h.alike src hsrc (hc.congr htype.symm) event hevent hback).symm htype

/-- Being the same run is transitive. -/
theorem trans (ha : (a.map Event.eventId).Nodup) (hb : (b.map Event.eventId).Nodup)
    (hc : (c.map Event.eventId).Nodup) (hab : SameRun cfg a b) (hbc : SameRun cfg b c) :
    SameRun cfg a c := by
  refine ⟨fun src hsrc hcomp => ?_, fun event hevent hcomp => ?_, ?_⟩
  · obtain ⟨mid, hmid, hlink⟩ := hab.hasPartner src hsrc hcomp
    have htype := eventType_of_link ha hb hsrc hmid hlink
    obtain ⟨event, hevent, hlink'⟩ := hbc.hasPartner mid hmid (hcomp.congr htype)
    exact ⟨event, hevent, linkStreams_comp ha hb hlink hlink'⟩
  · obtain ⟨mid, hmid, hlink'⟩ := hbc.isPartner event hevent hcomp
    have htype := eventType_of_link hb hc hmid hevent hlink'
    obtain ⟨src, hsrc, hlink⟩ := hab.isPartner mid hmid (hcomp.congr htype.symm)
    exact ⟨src, hsrc, linkStreams_comp ha hb hlink hlink'⟩
  · intro src hsrc hcomp event hevent hlink
    obtain ⟨mid, hmid, hlink₁⟩ := hab.hasPartner src hsrc hcomp
    have htype := eventType_of_link ha hb hsrc hmid hlink₁
    have hmidcomp := hcomp.congr htype
    obtain ⟨event', hevent', hlink₂⟩ := hbc.hasPartner mid hmid hmidcomp
    -- the link of the ends leads where the two links lead
    have hsame := Option.some.inj ((linkStreams_comp ha hb hlink₁ hlink₂).symm.trans hlink)
    obtain rfl := List.inj_on_of_nodup_map hc hevent' hevent hsame
    exact (hab.alike src hsrc hcomp mid hmid hlink₁).trans htype
      (hbc.alike mid hmid hmidcomp event' hevent hlink₂)

end SameRun

end Streams

/-- An exact match is a pair of runs that agree, the replayed one without errors. -/
theorem matchedExactly_iff_sameRun {original : Recording} {replayed : List Event}
    (ho : (original.events.map Event.eventId).Nodup) (hr : (replayed.map Event.eventId).Nodup) :
    MatchedExactly original replayed (compareRun (comparators cfg) original replayed
        (linkStreams original.events replayed)) ↔
      SameRun cfg original.events replayed ∧ Faultless replayed := by
  rw [matchedExactly_iff ho hr, not_disagrees_iff]
  constructor
  · rintro ⟨⟨hhas, his⟩, halike⟩
    have hfaultless : Faultless replayed := by
      intro event hevent hc
      obtain ⟨src, hsrc, hcsrc, hpair⟩ := his event hevent hc
      exact ⟨hpair.2, (halike src hsrc hcsrc event hevent hpair).1⟩
    refine ⟨⟨fun src hsrc hc => ?_, fun event hevent hc => ?_, ?_⟩, hfaultless⟩
    · obtain ⟨event, hevent, hpair⟩ := hhas src hsrc hc
      exact ⟨event, hevent, hpair.1⟩
    · obtain ⟨src, hsrc, -, hpair⟩ := his event hevent hc
      exact ⟨src, hsrc, hpair.1⟩
    · intro src hsrc hc event hevent hlink
      have hcevent := hc.congr (eventType_of_link ho hr hsrc hevent hlink)
      exact (halike src hsrc hc event hevent ⟨hlink, (hfaultless event hevent hcevent).1⟩).2
  · rintro ⟨hsame, hfaultless⟩
    -- what a comparable original is linked to has an id
    have hcomp : ∀ src ∈ original.events, Comparable src → ∀ event ∈ replayed,
        (linkStreams original.events replayed).get? src.eventId = some event.eventId →
          Comparable event := fun src hsrc hc event hevent hlink =>
      hc.congr (eventType_of_link ho hr hsrc hevent hlink)
    refine ⟨⟨fun src hsrc hc => ?_, fun event hevent hc => ?_⟩, ?_⟩
    · obtain ⟨event, hevent, hlink⟩ := hsame.hasPartner src hsrc hc
      have hc' : Comparable event := hcomp src hsrc hc event hevent hlink
      exact ⟨event, hevent, hlink, (hfaultless event hevent hc').1⟩
    · obtain ⟨src, hsrc, hlink⟩ := hsame.isPartner event hevent hc
      have htype := eventType_of_link ho hr hsrc hevent hlink
      exact ⟨src, hsrc, hc.congr htype.symm, hlink, (hfaultless event hevent hc).1⟩
    · intro src hsrc hc event hevent hpair
      exact ⟨(hfaultless event hevent (hcomp src hsrc hc event hevent hpair.1)).2,
        hsame.alike src hsrc hc event hevent hpair.1⟩

/-- **Exact matches compose.** When a replay matches its original exactly, then whatever matches
the replay exactly matches the original, and whatever else matches the original exactly matches the
replay. -/
theorem matchedExactly_chain {original replay : Recording} {replayed : List Event}
    (ho : (original.events.map Event.eventId).Nodup) (hr : (replay.events.map Event.eventId).Nodup)
    (hd : (replayed.map Event.eventId).Nodup)
    (hfirst : MatchedExactly original replay.events (compareRun (comparators cfg) original
      replay.events (linkStreams original.events replay.events))) :
    MatchedExactly replay replayed (compareRun (comparators cfg) replay replayed
        (linkStreams replay.events replayed)) ↔
      MatchedExactly original replayed (compareRun (comparators cfg) original replayed
        (linkStreams original.events replayed)) := by
  rw [matchedExactly_iff_sameRun ho hr] at hfirst
  rw [matchedExactly_iff_sameRun hr hd, matchedExactly_iff_sameRun ho hd]
  refine and_congr_left fun _ => ⟨fun h => ?_, fun h => ?_⟩
  · exact hfirst.1.trans ho hr hd h
  · exact (hfirst.1.symm ho hr).trans hr ho hd h

/-- One request and its response, `id` being what the ids end in. -/
def roundTrip (id : String) : Recording where
  recordingId := "rec_" ++ id
  events := [.brief .httpRequest ("req" ++ id) id 0, .brief .httpResponse ("res" ++ id) id 1]

/-- Two replays of one recording. -/
theorem matchedExactly_chain_roundTrip :
    MatchedExactly (roundTrip "2") (roundTrip "3").events (compareRun (comparators {})
        (roundTrip "2") (roundTrip "3").events
        (linkStreams (roundTrip "2").events (roundTrip "3").events)) ↔
      MatchedExactly (roundTrip "1") (roundTrip "3").events (compareRun (comparators {})
        (roundTrip "1") (roundTrip "3").events
        (linkStreams (roundTrip "1").events (roundTrip "3").events)) :=
  matchedExactly_chain (by decide) (by decide) (by decide) ⟨by decide, by decide⟩

/-! ### The comparison the other way round -/

/-- What a category becomes when the two runs change places. -/
def ComparisonCategory.mirror : ComparisonCategory → ComparisonCategory
  | .missing => .new
  | .new => .missing
  | c => c

/-- What an entry of a diff becomes. -/
def mirrorEntry : Value → Value
  | .dict [("original", original), ("replayed", replayed)] =>
    .dict [("original", replayed), ("replayed", original)]
  | v => v

/-- What a row becomes. -/
def ComparisonResult.mirror (r : ComparisonResult) : ComparisonResult :=
  { r with
    originalEventId := r.replayedEventId
    replayedEventId := r.originalEventId
    category := r.category.mirror
    diff := r.diff.map fun p => (p.1, mirrorEntry p.2) }

/-- The row as `save_comparison` stores it. -/
def ComparisonResult.savedFor (replayRecordingId : String) (r : ComparisonResult) :
    ComparisonResult :=
  { r with replayRecordingId := replayRecordingId }

/-- Comparing the other way round mirrors an entry of the diff. -/
theorem diffEntry_swap {key : String} {v w : Value} (hv : v.wf = true) (hw : w.wf = true) :
    diffEntry key w v = (diffEntry key v w).map fun p => (p.1, mirrorEntry p.2) := by
  unfold diffEntry
  rw [Value.eq_comm hw hv]
  split_ifs
  · rfl
  · rfl

/-- Two events without errors are judged alike in both directions. -/
theorem compareFields_swap {eventType : String} {fields : List (String × Value × Value)}
    {e e' : Event} (he : e.payload.has "error" = false) (he' : e'.payload.has "error" = false)
    (hwf : ∀ f ∈ fields, f.2.1.wf = true ∧ f.2.2.wf = true) (replayId : String) :
    (compareFields eventType (fields.map fun f => (f.1, f.2.2, f.2.1)) e' e).savedFor replayId =
      ((compareFields eventType fields e e').savedFor replayId).mirror := by
  have hdiff : ((fields.map fun f => (f.1, f.2.2, f.2.1)).flatMap fun f =>
      diffEntry f.1 f.2.1 f.2.2) =
        (fields.flatMap fun f => diffEntry f.1 f.2.1 f.2.2).map
          fun p => (p.1, mirrorEntry p.2) := by
    rw [List.flatMap_map, List.map_flatMap]
    exact List.flatMap_congr fun f hf => diffEntry_swap (hwf f hf).1 (hwf f hf).2
  unfold compareFields
  dsimp only
  rw [he, he', if_neg Bool.false_ne_true, if_neg Bool.false_ne_true, hdiff, List.isEmpty_map]
  split_ifs
  · rfl
  · rfl

section Rows

variable {original : Recording} {replayed : List Event} {links : Dict String String}

/-- The walk finds no partner for an original that is in no pair. -/
theorem partner_eq_none_iff (hr : (replayed.map Event.eventId).Nodup) {src : Event} :
    partner (replayById replayed) links src = none ↔
      ∀ event ∈ replayed, ¬IsPair links src event := by
  rw [Option.eq_none_iff_forall_ne_some]
  constructor
  · intro h event hevent hpair
    exact h event ((partner_eq_some_iff hr).mpr ⟨hevent, hpair.1, hpair.2⟩)
  · intro h event hpartner
    obtain ⟨hevent, hlink, hne⟩ := (partner_eq_some_iff hr).mp hpartner
    exact h event hevent ⟨hlink, hne⟩

/-- A replayed event is consumed by the comparable original it is paired with. -/
theorem mem_consumes_iff (hr : (replayed.map Event.eventId).Nodup) {event : Event}
    (hevent : event ∈ replayed) :
    event.eventId ∈ original.events.filterMap (consumes (comparators cfg) replayed links) ↔
      ∃ src ∈ original.events, Comparable src ∧ IsPair links src event := by
  rw [List.mem_filterMap]
  refine exists_congr fun src => and_congr_right fun _ => ?_
  by_cases hc : Comparable src
  · obtain ⟨comparator, hcomp⟩ := exists_comparatorFor cfg hc
    rw [consumes, hcomp, Option.bind_some, Option.map_eq_some_iff, and_iff_right hc]
    constructor
    · -- the partner has the id of `event`, so it is `event`
      rintro ⟨event', hpartner, hid⟩
      obtain ⟨hevent', hlink, hne⟩ := (partner_eq_some_iff hr).mp hpartner
      obtain rfl := List.inj_on_of_nodup_map hr hevent' hevent hid
      exact ⟨hlink, hne⟩
    · intro hpair
      exact ⟨event, (partner_eq_some_iff hr).mpr ⟨hevent, hpair.1, hpair.2⟩, rfl⟩
  · rw [consumes, comparatorFor_eq_none cfg hc, Option.bind_none]
    exact iff_of_false (fun h => by cases h) fun h => hc h.1

/-- The rows of a comparison: the pairs, the originals without a partner, and the replayed events
that are nobody's partner. -/
theorem mem_compareRun_iff (hr : (replayed.map Event.eventId).Nodup) {r : ComparisonResult} :
    r ∈ compareRun (comparators cfg) original replayed links ↔
      (∃ src ∈ original.events, ∃ event ∈ replayed, ∃ comparator,
        comparatorFor (comparators cfg) src.eventType.value = some comparator ∧
          IsPair links src event ∧ r = comparator.compare src event) ∨
      (∃ src ∈ original.events, Comparable src ∧ (∀ event ∈ replayed, ¬IsPair links src event) ∧
        r = missingResult (replayIdOf replayed) src) ∨
      ∃ event ∈ replayed, Comparable event ∧
        (∀ src ∈ original.events, Comparable src → ¬IsPair links src event) ∧
          r = newResult (replayIdOf replayed) event := by
  rw [compareRun_eq, List.mem_append, ← or_assoc]
  refine or_congr ?_ ?_
  · -- the rows of the originals
    rw [List.mem_filterMap]
    constructor
    · rintro ⟨src, hsrc, hrow⟩
      obtain ⟨comparator, hcomp, rfl⟩ := Option.map_eq_some_iff.mp hrow
      have hc : Comparable src := comparable_of_comparatorFor hcomp
      -- with distinct ids, looking the link up finds its pair or shows there is none
      cases hp : partner (replayById replayed) links src with
      | none => exact .inr ⟨src, hsrc, hc, (partner_eq_none_iff hr).mp hp, rfl⟩
      | some event =>
        obtain ⟨hevent, hlink, hne⟩ := (partner_eq_some_iff hr).mp hp
        exact .inl ⟨src, hsrc, event, hevent, comparator, hcomp, ⟨hlink, hne⟩, rfl⟩
    · rintro (⟨src, hsrc, event, hevent, comparator, hcomp, hpair, rfl⟩ |
        ⟨src, hsrc, hc, hnone, rfl⟩)
      · have hp := (partner_eq_some_iff hr).mpr ⟨hevent, hpair.1, hpair.2⟩
        exact ⟨src, hsrc, by rw [resultFor, hcomp, Option.map_some, hp]⟩
      · obtain ⟨comparator, hcomp⟩ := exists_comparatorFor cfg hc
        have hp : partner (replayById replayed) links src = none :=
          (partner_eq_none_iff hr).mpr hnone
        exact ⟨src, hsrc, by rw [resultFor, hcomp, Option.map_some, hp]⟩
  · -- the rows of the replayed events that are left
    rw [List.mem_map]
    constructor
    · rintro ⟨event, hmem, rfl⟩
      obtain ⟨hevent, hkept⟩ := List.mem_filter.mp hmem
      rw [decide_eq_true_eq, comparatorFor_isSome, decide_eq_true_eq, mem_consumes_iff hr hevent]
        at hkept
      exact ⟨event, hevent, hkept.2, fun src hsrc hc hpair => hkept.1 ⟨src, hsrc, hc, hpair⟩, rfl⟩
    · rintro ⟨event, hevent, hc, hnone, rfl⟩
      refine ⟨event, List.mem_filter.mpr ⟨hevent, ?_⟩, rfl⟩
      rw [decide_eq_true_eq, comparatorFor_isSome, decide_eq_true_eq, mem_consumes_iff hr hevent]
      refine ⟨?_, hc⟩
      rintro ⟨src, hsrc, hcomparable, hpair⟩
      exact hnone src hsrc hcomparable hpair

/-- No row stands twice in a comparison, also when all carry one recording id. -/
theorem nodup_compareRun (ho : (original.events.map Event.eventId).Nodup)
    (hr : (replayed.map Event.eventId).Nodup) (replayId : String) :
    ((compareRun (comparators cfg) original replayed
      (linkStreams original.events replayed)).map fun r => r.savedFor replayId).Nodup := by
  have horiginal : ((compareRun (comparators cfg) original replayed
      (linkStreams original.events replayed)).filterMap
        ComparisonResult.originalEventId).Nodup := by
    rw [originalEventIds_compareRun]
    exact ho.sublist (List.filter_sublist.map _)
  have hreplayed : ((compareRun (comparators cfg) original replayed
      (linkStreams original.events replayed)).filterMap
        ComparisonResult.replayedEventId).Nodup := by
    rw [(replayedEventIds_compareRun cfg ho hr).nodup_iff]
    exact hr.sublist (List.filter_sublist.map _)
  rw [List.Nodup, List.pairwise_map]
  rw [List.Nodup, List.pairwise_filterMap] at horiginal hreplayed
  refine (horiginal.and hreplayed).imp_of_mem fun {r r'} hmem _ h heq => ?_
  -- a row names an event of one side at least
  rcases compareRun_cases hr hmem with ⟨src, rfl⟩ | ⟨src, -, event, -, -, hverdict⟩ | ⟨event, rfl⟩
  · exact h.1 src.eventId rfl src.eventId
      ((congrArg ComparisonResult.originalEventId heq).symm.trans rfl) rfl
  · exact h.1 src.eventId hverdict.originalEventId src.eventId
      ((congrArg ComparisonResult.originalEventId heq).symm.trans hverdict.originalEventId) rfl
  · exact h.2 event.eventId rfl event.eventId
      ((congrArg ComparisonResult.replayedEventId heq).symm.trans rfl) rfl

end Rows

/-- A mirror's mirror is the entry. -/
theorem mirrorEntry_mirrorEntry (v : Value) : mirrorEntry (mirrorEntry v) = v := by
  by_cases hsides : ∃ original replayed, v =
      .dict [("original", original), ("replayed", replayed)]
  · obtain ⟨original, replayed, rfl⟩ := hsides
    rfl
  · have hself : mirrorEntry v = v := by
      unfold mirrorEntry
      split
      · exact absurd ⟨_, _, rfl⟩ hsides
      · rfl
    rw [hself, hself]

/-- A mirror's mirror is the row. -/
theorem ComparisonResult.mirror_mirror (r : ComparisonResult) : r.mirror.mirror = r := by
  have hcategory : r.category.mirror.mirror = r.category := by
    cases r.category <;> rfl
  have hdiff : (r.diff.map fun p => (p.1, mirrorEntry p.2)).map (fun p => (p.1, mirrorEntry p.2)) =
      r.diff := by
    rw [List.map_map]
    refine List.map_id'' (fun p => ?_) r.diff
    exact Prod.ext rfl (mirrorEntry_mirrorEntry p.2)
  unfold ComparisonResult.mirror
  rw [hcategory, hdiff]

section Swap

variable {a b : Recording}

/-- Pairs of comparable events with ids are pairs in both directions. -/
theorem isPair_swap (ha : (a.events.map Event.eventId).Nodup)
    (hb : (b.events.map Event.eventId).Nodup) {src event : Event} (hsrc : src.eventId ≠ "")
    (h : IsPair (linkStreams a.events b.events) src event) :
    IsPair (linkStreams b.events a.events) event src :=
  ⟨(linkStreams_swap ha hb).mpr h.1, hsrc⟩

/-- Every row has its mirror image in the comparison the other way round. -/
theorem exists_mirror (ha : (a.events.map Event.eventId).Nodup)
    (hb : (b.events.map Event.eventId).Nodup) (hfa : Faultless a.events)
    (hfb : Faultless b.events) (replayId : String) {r : ComparisonResult}
    (h : r ∈ compareRun (comparators cfg) a b.events (linkStreams a.events b.events)) :
    ∃ r' ∈ compareRun (comparators cfg) b a.events (linkStreams b.events a.events),
      r'.savedFor replayId = (r.savedFor replayId).mirror := by
  rcases (mem_compareRun_iff hb).mp h with
    ⟨src, hsrc, event, hevent, comparator, hcomp, hpair, rfl⟩ | ⟨src, hsrc, hc, hnone, rfl⟩ |
      ⟨event, hevent, hc, hnone, rfl⟩
  · -- a pair is a pair from either side, under the same comparator
    have hc : Comparable src := comparable_of_comparatorFor hcomp
    have htype := eventType_of_link ha hb hsrc hevent hpair.1
    obtain ⟨hne, herr⟩ := hfa src hsrc hc
    obtain ⟨-, herr'⟩ := hfb event hevent (hc.congr htype)
    have hcomp' : comparatorFor (comparators cfg) event.eventType.value = some comparator :=
      htype ▸ hcomp
    refine ⟨_, compare_mem_compareRun ha hevent hsrc hcomp' (isPair_swap ha hb hne hpair), ?_⟩
    rw [compare_eq hcomp, compare_eq hcomp', ← htype, ← compareFields_swap herr herr' ?_ replayId,
      List.map_map]
    · rfl
    · intro f hf
      obtain ⟨field, -, rfl⟩ := List.mem_map.mp hf
      exact ⟨field.wf_view src, field.wf_view event⟩
  · -- what was missing is new
    refine ⟨_, (mem_compareRun_iff ha).mpr (.inr (.inr ⟨src, hsrc, hc, ?_, rfl⟩)), rfl⟩
    intro event hevent hcevent hpair
    exact hnone event hevent (isPair_swap hb ha (hfb event hevent hcevent).1 hpair)
  · -- what was new is missing
    refine ⟨_, (mem_compareRun_iff ha).mpr (.inr (.inl ⟨event, hevent, hc, ?_, rfl⟩)), rfl⟩
    intro src hsrc hpair
    have htype := eventType_of_link hb ha hevent hsrc hpair.1
    exact hnone src hsrc (hc.congr htype) (isPair_swap hb ha (hfb event hevent hc).1 hpair)

/-- **The comparison is symmetric.** For two runs with distinct ids whose comparable events have
ids and carry no error, the comparison the other way round has the mirrored rows: the same pairs
with the same categories and the two sides of every diff exchanged, and `MISSING` for `NEW`. -/
theorem compareRun_swap_perm (ha : (a.events.map Event.eventId).Nodup)
    (hb : (b.events.map Event.eventId).Nodup) (hfa : Faultless a.events)
    (hfb : Faultless b.events) (replayId : String) :
    ((compareRun (comparators cfg) b a.events (linkStreams b.events a.events)).map
        fun r => r.savedFor replayId).Perm
      ((compareRun (comparators cfg) a b.events (linkStreams a.events b.events)).map
        fun r => (r.savedFor replayId).mirror) := by
  have hinjective : Function.Injective ComparisonResult.mirror :=
    (show Function.Involutive _ from ComparisonResult.mirror_mirror).injective
  have hnodup : ((compareRun (comparators cfg) a b.events (linkStreams a.events b.events)).map
      fun r => (r.savedFor replayId).mirror).Nodup := by
    have hmap := (@nodup_compareRun cfg _ _ ha hb replayId).map hinjective
    rwa [List.map_map] at hmap
  -- neither side has a row twice, so it is enough that they have the same rows
  refine (List.perm_ext_iff_of_nodup (nodup_compareRun hb ha replayId) hnodup).mpr fun r => ?_
  rw [List.mem_map, List.mem_map]
  constructor
  · rintro ⟨r, hr, rfl⟩
    obtain ⟨r', hr', heq⟩ := exists_mirror hb ha hfb hfa replayId hr
    exact ⟨r', hr', by rw [heq, ComparisonResult.mirror_mirror]⟩
  · rintro ⟨r, hr, rfl⟩
    exact exists_mirror ha hb hfa hfb replayId hr

end Swap

/-- A request that was answered, and one that was not. -/
theorem compareRun_swap_perm_lost :
    let lost : Recording := { recordingId := "rec_2", events := [.brief .httpRequest "req2" "2" 0] }
    ((compareRun (comparators {}) lost (roundTrip "1").events
        (linkStreams lost.events (roundTrip "1").events)).map fun r => r.savedFor "rpl_1").Perm
      ((compareRun (comparators {}) (roundTrip "1") lost.events
        (linkStreams (roundTrip "1").events lost.events)).map
          fun r => (r.savedFor "rpl_1").mirror) :=
  compareRun_swap_perm (by decide) (by decide) (by decide) (by decide) "rpl_1"

end InfraReplay
