import InfraReplay.Comparison.Accounting

/-!
# A faithful replay compares as all `MATCH`

A replay is faithful when it repeats the original event by event under new event ids, new
correlation ids and new clocks, with other volatile strings of the same shape in the response
bodies and the result rows (`FaithfulReplay`).

The signatures do not change under the two renamings (`annotate_replay`), so every event is linked
to its own repetition, and the two sides of a pair normalise to the same values. What is left to
go wrong is stated by `allMatch_iff`: a replayed event whose id is the empty string, which the
walk takes for a missing partner, and a NaN, which is not equal to itself.
-/

namespace InfraReplay

open Python

/-- The payload entry in which volatile strings may change: the body of a response, the rows of a
result. -/
def volatileKey : EventType → Option String
  | .httpResponse => some "body"
  | .pgResult => some "rows"
  | .httpRequest => none
  | .pgQuery => none

/-- Two payload entries of events of type `eventType` that a faithful replay may show. -/
def EntryReplayOf (eventType : EventType) (p q : String × Value) : Prop :=
  p.1 = q.1 ∧ if volatileKey eventType = some p.1 then Resembles p.2 q.2 else p.2 = q.2

/-- `e'` repeats `e` under the two renamings. Recording id, timestamps, durations and whatever the
comparison does not read are free. -/
structure ReplayOf (renameEvent renameGroup : String → String) (e e' : Event) : Prop where
  eventId : e'.eventId = renameEvent e.eventId
  correlationId : e'.correlationId = renameGroup e.correlationId
  eventType : e'.eventType = e.eventType
  payload : List.Forall₂ (EntryReplayOf e.eventType) e.payload.items e'.payload.items

/-- The pairs of an original and its repetition, for one renaming of the whole stream. -/
structure IsReplay (renameEvent renameGroup : String → String) (pairs : List (Event × Event)) :
    Prop where
  replayOf : ∀ p ∈ pairs, ReplayOf renameEvent renameGroup p.1 p.2
  event_injective : ∀ p ∈ pairs, ∀ q ∈ pairs,
    renameEvent p.1.eventId = renameEvent q.1.eventId → p.1.eventId = q.1.eventId
  group_injective : ∀ p ∈ pairs, ∀ q ∈ pairs,
    renameGroup p.1.correlationId = renameGroup q.1.correlationId →
      p.1.correlationId = q.1.correlationId
  order : ∀ p ∈ pairs, ∀ q ∈ pairs,
    p.1.sequence ≤ q.1.sequence ↔ p.2.sequence ≤ q.2.sequence

/-- `replayed` is a faithful replay of `original`. -/
def FaithfulReplay (original replayed : List Event) : Prop :=
  ∃ renameEvent renameGroup pairs, pairs.map Prod.fst = original ∧
    pairs.map Prod.snd = replayed ∧ IsReplay renameEvent renameGroup pairs

/-! ### The links of a faithful replay -/

section Links

variable {renameEvent renameGroup : String → String} {pairs : List (Event × Event)}

private theorem idxOf_map_of_injOn {f : String → String} {l : List String} {a : String}
    (hf : ∀ b ∈ l, f b = f a → b = a) : (l.map f).idxOf (f a) = l.idxOf a := by
  induction l with
  | nil => rfl
  | cons b l ih =>
    rw [List.map_cons, List.idxOf_cons, List.idxOf_cons,
      ih fun c hc => hf c (List.mem_cons_of_mem _ hc)]
    by_cases hb : b = a
    · subst hb
      simp
    · have hfb : f b ≠ f a := fun h => hb (hf b (by simp) h)
      rw [beq_eq_false_iff_ne.mpr hfb, beq_eq_false_iff_ne.mpr hb]

/-- Renaming the groups injectively does not change their numbers. -/
theorem groupNumber_replay (h : IsReplay renameEvent renameGroup pairs)
    {before : List (Event × Event)} {p : Event × Event} (hbefore : ∀ q ∈ before, q ∈ pairs)
    (hp : p ∈ pairs) :
    groupNumber (before.map Prod.snd) p.2.correlationId =
      groupNumber (before.map Prod.fst) p.1.correlationId := by
  have hmap : (before.map Prod.snd).map Event.correlationId =
      ((before.map Prod.fst).map Event.correlationId).map renameGroup := by
    rw [List.map_map, List.map_map, List.map_map]
    exact List.map_congr_left fun q hq => (h.replayOf q (hbefore q hq)).correlationId
  have hinj : ∀ c ∈ (before.map Prod.fst).map Event.correlationId,
      ∀ c' ∈ (before.map Prod.fst).map Event.correlationId,
        renameGroup c = renameGroup c' → c = c' := by
    intro c hc c' hc' heq
    simp only [List.map_map, List.mem_map, Function.comp_apply] at hc hc'
    obtain ⟨q, hq, rfl⟩ := hc
    obtain ⟨q', hq', rfl⟩ := hc'
    exact h.group_injective q (hbefore q hq) q' (hbefore q' hq') heq
  rw [groupNumber, groupNumber, hmap, List.firstSeen_map hinj,
    (h.replayOf p hp).correlationId]
  -- the number is a position among the first occurrences, and renaming keeps positions
  refine idxOf_map_of_injOn fun c hc heq => ?_
  simp only [List.mem_firstSeen, List.map_map, List.mem_map, Function.comp_apply] at hc
  obtain ⟨q, hq, rfl⟩ := hc
  exact h.group_injective q (hbefore q hq) p hp heq

/-- A repetition shares its slot with the repetitions of the events its original shared it
with. -/
theorem sameSlot_replay (h : IsReplay renameEvent renameGroup pairs) {p q : Event × Event}
    (hp : p ∈ pairs) (hq : q ∈ pairs) : SameSlot p.2 q.2 ↔ SameSlot p.1 q.1 := by
  have hrp := h.replayOf p hp
  have hrq := h.replayOf q hq
  rw [SameSlot, SameSlot, hrp.eventType, hrq.eventType, hrp.correlationId, hrq.correlationId]
  refine and_congr_left fun _ => ⟨h.group_injective p hp q hq, fun heq => by rw [heq]⟩

/-- The signatures of a replay are those of the original under the new event ids. -/
theorem annotate_replay (h : IsReplay renameEvent renameGroup pairs)
    (before l : List (Event × Event)) (hbefore : ∀ q ∈ before, q ∈ pairs)
    (hl : ∀ q ∈ l, q ∈ pairs) :
    annotate (before.map Prod.snd) (l.map Prod.snd) =
      (annotate (before.map Prod.fst) (l.map Prod.fst)).map fun entry =>
        (entry.1, renameEvent entry.2) := by
  induction l generalizing before with
  | nil => rfl
  | cons p l ih =>
    have hp : p ∈ pairs := hl p (by simp)
    -- as many events of the slot come before on either side
    have hcount : (before.map Prod.snd).countP (fun e => SameSlot p.2 e) =
        (before.map Prod.fst).countP fun e => SameSlot p.1 e := by
      rw [List.countP_map, List.countP_map]
      refine List.countP_congr fun q hq => ?_
      simp [sameSlot_replay h hp (hbefore q hq)]
    have hsig : signatureIn (before.map Prod.snd) p.2 =
        signatureIn (before.map Prod.fst) p.1 := by
      rw [signatureIn, signatureIn, groupNumber_replay h hbefore hp, hcount,
        (h.replayOf p hp).eventType]
    have hrest := ih (before ++ [p])
      (fun q hq => by
        rcases List.mem_append.mp hq with hq | hq
        · exact hbefore q hq
        · rwa [List.mem_singleton.mp hq])
      fun q hq => hl q (List.mem_cons_of_mem _ hq)
    simp only [List.map_append, List.map_cons, List.map_nil] at hrest
    simp only [List.map_cons, annotate, hsig, hrest, (h.replayOf p hp).eventId]

theorem signatures_replay (h : IsReplay renameEvent renameGroup pairs) :
    signatures (pairs.map Prod.snd) =
      (signatures (pairs.map Prod.fst)).map fun entry => (entry.1, renameEvent entry.2) := by
  rw [signatures_eq, signatures_eq, List.sortBy_map, List.sortBy_map,
    List.sortBy_congr fun p hp q hq => (h.order p hp q hq).symm]
  exact annotate_replay h [] _ (by simp) fun q hq => List.mem_sortBy.mp hq

/-- Every event of the stream has a signature. -/
theorem exists_mem_signatures {events : List Event} {event : Event} (h : event ∈ events) :
    ∃ sig, (sig, event.eventId) ∈ signatures events := by
  have hids : event.eventId ∈ (signatures events).map Prod.snd := by
    rw [signatures_eq, map_snd_annotate]
    exact List.mem_map_of_mem (List.mem_sortBy.mpr h)
  obtain ⟨⟨sig, eventId⟩, hentry, rfl⟩ := List.mem_map.mp hids
  exact ⟨sig, hentry⟩

/-- In a faithful replay every event is linked to its repetition. -/
theorem get?_linkStreams_replay (h : IsReplay renameEvent renameGroup pairs)
    (ho : ((pairs.map Prod.fst).map Event.eventId).Nodup) {p : Event × Event} (hp : p ∈ pairs) :
    (linkStreams (pairs.map Prod.fst) (pairs.map Prod.snd)).get? p.1.eventId =
      some p.2.eventId := by
  obtain ⟨sig, hsig⟩ := exists_mem_signatures (List.mem_map_of_mem (f := Prod.fst) hp)
  -- the repetition has the signature of its original
  refine (get?_linkStreams _ ho).mpr ⟨sig, hsig, ?_⟩
  rw [signatures_replay h, (h.replayOf p hp).eventId]
  exact List.mem_map_of_mem (f := fun entry : Signature × String =>
    (entry.1, renameEvent entry.2)) hsig

/-- The ids of a faithful replay are distinct. -/
theorem nodup_replayed (h : IsReplay renameEvent renameGroup pairs)
    (ho : ((pairs.map Prod.fst).map Event.eventId).Nodup) :
    ((pairs.map Prod.snd).map Event.eventId).Nodup := by
  have hmap : (pairs.map Prod.snd).map Event.eventId =
      ((pairs.map Prod.fst).map Event.eventId).map renameEvent := by
    rw [List.map_map, List.map_map, List.map_map]
    exact List.map_congr_left fun q hq => (h.replayOf q hq).eventId
  rw [hmap]
  refine ho.map_on fun a ha b hb hab => ?_
  simp only [List.map_map, List.mem_map, Function.comp_apply] at ha hb
  obtain ⟨p, hp, rfl⟩ := ha
  obtain ⟨q, hq, rfl⟩ := hb
  exact h.event_injective p hp q hq hab

end Links

/-! ### The verdict on a pair -/

/-- The values the comparison of an event looks at. -/
def comparedValues (cfg : Config) (e : Event) : List Value :=
  match e.eventType with
  | .httpResponse => [e.payload.getD "status", normalize cfg (e.payload.getD "body")]
  | .pgResult =>
    [normalize cfg (e.payload.getD "rows_affected"), normalize cfg (e.payload.getD "rows")]
  | .httpRequest => []
  | .pgQuery => []

/-- Looking up a key on both sides of a faithful replay. -/
theorem getD_replay {eventType : EventType} {p q : Payload}
    (h : List.Forall₂ (EntryReplayOf eventType) p.items q.items) (key : String) :
    (volatileKey eventType = some key → Resembles (p.getD key) (q.getD key)) ∧
      (volatileKey eventType ≠ some key → p.getD key = q.getD key) := by
  rw [Payload.getD, Payload.getD, Payload.get?, Payload.get?]
  generalize p.items = items at h
  generalize q.items = items' at h
  induction h with
  | nil => simp [Resembles]
  | @cons a b l l' hpq _ ih =>
    obtain ⟨k, v⟩ := a
    obtain ⟨k', w⟩ := b
    obtain ⟨hk, hvw⟩ := hpq
    simp only at hk hvw
    subst hk
    rw [Dict.get?_cons, Dict.get?_cons]
    -- the first entry with the key answers on both sides, the others are passed over
    by_cases hkey : k = key
    · subst hkey
      rw [if_pos rfl, if_pos rfl, Option.getD_some, Option.getD_some]
      exact ⟨fun hv => by rwa [if_pos hv] at hvw, fun hv => by rwa [if_neg hv] at hvw⟩
    · rw [if_neg hkey, if_neg hkey]
      exact ih

/-- A comparator answers `MATCH` with an empty diff when the replay carries no error and every
field is equal. -/
theorem match_and_diff_iff {eventType : String} {fields : List (String × Value × Value)}
    {original replayed : Event} (herr : replayed.payload.has "error" = false) :
    ((compareFields eventType fields original replayed).category = .match ∧
        (compareFields eventType fields original replayed).diff = []) ↔
      ∀ f ∈ fields, f.2.1.eq f.2.2 = true := by
  rw [← category_compareFields_iff herr]
  exact ⟨fun h => h.1, fun h => ⟨h, diff_compareFields_of_match h⟩⟩

/-- On a pair of a faithful replay, the comparator answers `MATCH` with an empty diff exactly when
no compared value is a NaN. -/
theorem compare_replay_iff {cfg : Config} {renameEvent renameGroup : String → String}
    {e e' : Event} (h : ReplayOf renameEvent renameGroup e e')
    (herr : e'.payload.has "error" = false) {comparator : ComparatorPlugin}
    (hcomp : comparatorFor (comparators cfg) e.eventType.value = some comparator) :
    ((comparator.compare e e').category = .match ∧ (comparator.compare e e').diff = []) ↔
      ∀ v ∈ comparedValues cfg e, v.isNan = false := by
  -- what differs between the two payloads is gone after normalisation
  have hget := getD_replay h.payload
  have hnorm : ∀ key, normalize cfg (e.payload.getD key) = normalize cfg (e'.payload.getD key) := by
    intro key
    by_cases hk : volatileKey e.eventType = some key
    · exact normalize_congr ((hget key).1 hk)
    · rw [(hget key).2 hk]
  -- so each field is compared with itself
  have hself : ∀ key, (normalize cfg (e.payload.getD key)).eq (normalize cfg (e.payload.getD key)) =
      !(normalize cfg (e.payload.getD key)).isNan := fun key =>
    Value.eq_self _ (wf_normalize (e.payload.wf_getD key))
  cases htype : e.eventType with
  | httpResponse =>
    have hstatus : e.payload.getD "status" = e'.payload.getD "status" :=
      (hget "status").2 (by rw [htype]; decide)
    have hc : comparator = httpComparator cfg := by
      rw [htype] at hcomp
      exact (Option.some.inj hcomp).symm
    subst hc
    rw [httpComparator, match_and_diff_iff herr, comparedValues, htype]
    simp only [List.forall_mem_cons, List.not_mem_nil, false_implies, implies_true, and_true]
    rw [← hstatus, ← hnorm "body", Value.eq_self _ (e.payload.wf_getD "status"), hself "body",
      Bool.not_eq_true', Bool.not_eq_true']
  | pgResult =>
    have hc : comparator = postgresComparator cfg := by
      rw [htype] at hcomp
      exact (Option.some.inj hcomp).symm
    subst hc
    rw [postgresComparator, match_and_diff_iff herr, comparedValues, htype]
    simp only [List.map_cons, List.map_nil, List.forall_mem_cons, List.not_mem_nil, false_implies,
      implies_true, and_true]
    rw [← hnorm "rows_affected", ← hnorm "rows", hself "rows_affected", hself "rows",
      Bool.not_eq_true', Bool.not_eq_true']
  -- requests and queries have no comparator
  | httpRequest =>
    rw [htype] at hcomp
    cases hcomp
  | pgQuery =>
    rw [htype] at hcomp
    cases hcomp

/-! ### The verdict on a run -/

/-- One result for every comparable original and nothing else, each `MATCH` with an empty diff. -/
def AllMatch (original : List Event) (results : List ComparisonResult) : Prop :=
  results.map ComparisonResult.originalEventId =
      (original.filter Comparable).map (fun e => some e.eventId) ∧
    ∀ r ∈ results, r.category = .match ∧ r.diff = []

/-- When every row names an original, the rows are as many as the originals they name. -/
private theorem map_eq_of_isSome {f : ComparisonResult → Option String}
    {results : List ComparisonResult} (h : ∀ r ∈ results, (f r).isSome = true) :
    results.map f = (results.filterMap f).map some := by
  induction results with
  | nil => rfl
  | cons r results ih =>
    obtain ⟨a, ha⟩ := Option.isSome_iff_exists.mp (h r (by simp))
    rw [List.map_cons, List.filterMap_cons, ha, ih fun r' hr' => h r' (by simp [hr'])]
    rfl

section Run

variable {cfg : Config} {renameEvent renameGroup : String → String}
  {pairs : List (Event × Event)}

/-- The row of a comparable original in a faithful replay. -/
theorem resultFor_replay (h : IsReplay renameEvent renameGroup pairs)
    (ho : ((pairs.map Prod.fst).map Event.eventId).Nodup) {p : Event × Event} (hp : p ∈ pairs)
    {comparator : ComparatorPlugin}
    (hcomp : comparatorFor (comparators cfg) p.1.eventType.value = some comparator) :
    resultFor (comparators cfg) (pairs.map Prod.snd)
        (linkStreams (pairs.map Prod.fst) (pairs.map Prod.snd)) p.1 =
      some (if p.2.eventId = "" then missingResult (replayIdOf (pairs.map Prod.snd)) p.1
        else comparator.compare p.1 p.2) := by
  have hr := nodup_replayed h ho
  have hlink := get?_linkStreams_replay h ho hp
  rw [resultFor, hcomp, Option.map_some]
  -- an empty id is taken for no link (`if replay_eid`)
  by_cases hempty : p.2.eventId = ""
  · have hpartner : partner (replayById (pairs.map Prod.snd))
        (linkStreams (pairs.map Prod.fst) (pairs.map Prod.snd)) p.1 = none := by
      rw [partner, hlink]
      simp [hempty]
    rw [hpartner, if_pos hempty]
  · have hpartner := (partner_eq_some_iff hr).mpr
      ⟨List.mem_map_of_mem (f := Prod.snd) hp, hlink, hempty⟩
    rw [hpartner, if_neg hempty]

theorem comparable_replay (h : IsReplay renameEvent renameGroup pairs) {p : Event × Event}
    (hp : p ∈ pairs) : Comparable p.2 ↔ Comparable p.1 := by
  rw [Comparable, Comparable, (h.replayOf p hp).eventType]

/-- When no comparable repetition has the empty id, every one of them is consumed. -/
theorem unconsumed_replay (cfg : Config) (h : IsReplay renameEvent renameGroup pairs)
    (ho : ((pairs.map Prod.fst).map Event.eventId).Nodup)
    (hne : ∀ p ∈ pairs, Comparable p.1 → p.2.eventId ≠ "") :
    unconsumed cfg (pairs.map Prod.fst) (pairs.map Prod.snd) = [] := by
  refine List.eq_nil_iff_forall_not_mem.mpr fun event hmem => ?_
  obtain ⟨hevent, hnot, hcomp⟩ := mem_unconsumed.mp hmem
  obtain ⟨p, hp, rfl⟩ := List.mem_map.mp hevent
  have hcomp' : Comparable p.1 := (comparable_replay h hp).mp hcomp
  exact hnot ((mem_consumed ho (nodup_replayed h ho)).mpr
    ⟨p.1, List.mem_map_of_mem hp, hcomp', get?_linkStreams_replay h ho hp, hne p hp hcomp'⟩)

/-- An event that is not compared has no compared values. -/
private theorem comparedValues_of_not_comparable {e : Event} (h : ¬ Comparable e) :
    comparedValues cfg e = [] := by
  unfold comparedValues
  cases htype : e.eventType with
  | httpRequest => rfl
  | pgQuery => rfl
  | httpResponse => exact absurd (by simp [Comparable, htype]) h
  | pgResult => exact absurd (by simp [Comparable, htype]) h

/-- If every row is a `MATCH`, no repetition has the empty id and no compared value is a NaN. -/
private theorem pair_of_rows_match (h : IsReplay renameEvent renameGroup pairs)
    (ho : ((pairs.map Prod.fst).map Event.eventId).Nodup)
    (herr : ∀ p ∈ pairs, p.2.payload.has "error" = false) {p : Event × Event} (hp : p ∈ pairs)
    (hc : Comparable p.1)
    (hrow : ∀ r, resultFor (comparators cfg) (pairs.map Prod.snd)
        (linkStreams (pairs.map Prod.fst) (pairs.map Prod.snd)) p.1 = some r →
      r.category = .match ∧ r.diff = []) :
    p.2.eventId ≠ "" ∧ ∀ v ∈ comparedValues cfg p.1, v.isNan = false := by
  obtain ⟨comparator, hcomp⟩ :
      ∃ comparator, comparatorFor (comparators cfg) p.1.eventType.value = some comparator :=
    exists_comparatorFor cfg hc
  have hres := resultFor_replay h ho hp hcomp
  by_cases hempty : p.2.eventId = ""
  · -- the repetition is taken to be absent, so the row is a `MISSING` one
    rw [if_pos hempty] at hres
    have hcategory := (hrow _ hres).1
    exact absurd hcategory (by simp [missingResult])
  · rw [if_neg hempty] at hres
    exact ⟨hempty, (compare_replay_iff (h.replayOf p hp) (herr p hp) hcomp).mp (hrow _ hres)⟩

/-- If no comparable repetition has the empty id and no compared value is a NaN, every row names an
original and is a `MATCH`. -/
private theorem row_match {original : Recording} (horig : pairs.map Prod.fst = original.events)
    (h : IsReplay renameEvent renameGroup pairs)
    (ho : ((pairs.map Prod.fst).map Event.eventId).Nodup)
    (herr : ∀ p ∈ pairs, p.2.payload.has "error" = false)
    (hne : ∀ p ∈ pairs, Comparable p.1 → p.2.eventId ≠ "")
    (hnan : ∀ p ∈ pairs, ∀ v ∈ comparedValues cfg p.1, v.isNan = false) {r : ComparisonResult}
    (hr : r ∈ compareRun (comparators cfg) original (pairs.map Prod.snd)
      (linkStreams (pairs.map Prod.fst) (pairs.map Prod.snd))) :
    r.originalEventId.isSome = true ∧ r.category = .match ∧ r.diff = [] := by
  rw [compareRun_eq, ← horig, List.mem_append] at hr
  rcases hr with hr | hr
  · -- the row of an original
    obtain ⟨src, hsrc, hres⟩ := List.mem_filterMap.mp hr
    obtain ⟨p, hp, rfl⟩ := List.mem_map.mp hsrc
    cases hcomp : comparatorFor (comparators cfg) p.1.eventType.value with
    | none =>
      rw [resultFor, hcomp] at hres
      cases hres
    | some comparator =>
      have hc : Comparable p.1 :=
        of_decide_eq_true ((comparatorFor_isSome cfg p.1).symm.trans (by rw [hcomp]; rfl))
      rw [resultFor_replay h ho hp hcomp, if_neg (hne p hp hc), Option.some.injEq] at hres
      subst hres
      rw [(isVerdict_compare hcomp p.1 p.2).originalEventId]
      exact ⟨rfl, (compare_replay_iff (h.replayOf p hp) (herr p hp) hcomp).mpr (hnan p hp)⟩
  · -- there is no row of a replayed event left over
    have hnil := unconsumed_replay cfg h ho hne
    rw [unconsumed, consumed] at hnil
    rw [hnil] at hr
    simp at hr

end Run

/-- **A faithful replay compares as all `MATCH`**, if and only if no replayed response or result
has the empty string as its id and no status, body, row count or list of rows of the original is
itself a NaN. -/
theorem allMatch_iff {cfg : Config} {original : Recording} {replayed : List Event}
    (ho : (original.events.map Event.eventId).Nodup)
    (hfaithful : FaithfulReplay original.events replayed)
    (herr : ∀ e ∈ replayed, e.payload.has "error" = false) :
    AllMatch original.events (compareRun (comparators cfg) original replayed
        (linkStreams original.events replayed)) ↔
      (∀ e ∈ replayed, Comparable e → e.eventId ≠ "") ∧
        ∀ e ∈ original.events, ∀ v ∈ comparedValues cfg e, v.isNan = false := by
  obtain ⟨renameEvent, renameGroup, pairs, horig, rfl, h⟩ := hfaithful
  have hids := originalEventIds_compareRun cfg original (pairs.map Prod.snd)
    (linkStreams original.events (pairs.map Prod.snd))
  rw [← horig] at ho hids ⊢
  have herr' : ∀ p ∈ pairs, p.2.payload.has "error" = false := fun p hp =>
    herr p.2 (List.mem_map_of_mem hp)
  constructor
  · rintro ⟨-, hall⟩
    -- the row of a pair is in the result list, so it is a `MATCH`
    have hrow : ∀ p ∈ pairs, Comparable p.1 → p.2.eventId ≠ "" ∧
        ∀ v ∈ comparedValues cfg p.1, v.isNan = false := by
      intro p hp hc
      refine pair_of_rows_match h ho herr' hp hc fun r hr => hall r ?_
      rw [compareRun_eq, ← horig]
      apply List.mem_append_left
      exact List.mem_filterMap.mpr ⟨p.1, List.mem_map_of_mem hp, hr⟩
    constructor
    · intro e he hc
      obtain ⟨p, hp, rfl⟩ := List.mem_map.mp he
      exact (hrow p hp ((comparable_replay h hp).mp hc)).1
    · intro e he
      obtain ⟨p, hp, rfl⟩ := List.mem_map.mp he
      by_cases hc : Comparable p.1
      · exact (hrow p hp hc).2
      · simp [comparedValues_of_not_comparable hc]
  · rintro ⟨hne, hnan⟩
    have hrows : ∀ r ∈ compareRun (comparators cfg) original (pairs.map Prod.snd)
        (linkStreams (pairs.map Prod.fst) (pairs.map Prod.snd)),
          r.originalEventId.isSome = true ∧ r.category = .match ∧ r.diff = [] := by
      intro r hr
      refine row_match horig h ho herr' (fun p hp hc => ?_) (fun p hp => ?_) hr
      · exact hne p.2 (List.mem_map_of_mem hp) ((comparable_replay h hp).mpr hc)
      · exact hnan p.1 (List.mem_map_of_mem hp)
    refine ⟨?_, fun r hr => (hrows r hr).2⟩
    -- every row names its original, so the rows are as many as the comparable originals
    rw [map_eq_of_isSome fun r hr => (hrows r hr).1, hids, List.map_map]
    rfl

/-- The payload of a checkout response that names `orderId`. -/
private def checkoutPayload (orderId : String) : Payload :=
  ⟨[("status", .int 201), ("body", .dict [("order_id", .str orderId)])], rfl⟩

/-- A checkout replayed under new ids, with a fresh order id in its response, is all `MATCH`. -/
theorem allMatch_checkout :
    let original : Recording :=
      { recordingId := "rec_1"
        events := [.brief .httpRequest "req" "a" 0,
          .brief .httpResponse "res" "a" 1 (checkoutPayload "ord_9f2c1a7b3e00")] }
    let replayed := [Event.brief .httpRequest "req2" "z" 5,
      .brief .httpResponse "res2" "z" 7 (checkoutPayload "ord_0123456789ab")]
    AllMatch original.events (compareRun (comparators {}) original replayed
      (linkStreams original.events replayed)) := by
  refine (allMatch_iff (by decide) ?_ (by decide)).mpr ⟨by decide, by decide⟩
  refine ⟨(· ++ "2"), fun _ => "z", [(_, _), (_, _)], rfl, rfl, ?_⟩
  refine ⟨?_, by decide, by decide, by decide⟩
  simp only [List.forall_mem_cons, List.not_mem_nil, false_implies, implies_true, and_true]
  refine ⟨⟨by decide, rfl, rfl, .nil⟩, by decide, rfl, rfl, ?_⟩
  refine .cons ⟨rfl, rfl⟩ (.cons ⟨rfl, ?_⟩ .nil)
  exact ⟨rfl, Or.inr (.prefixedId (by decide) (by decide)), trivial⟩

/-- A renaming that sends the id of a response to the empty string turns its row into a `MISSING`
and a `NEW` one. -/
theorem not_allMatch_empty_id :
    ¬ ∀ (cfg : Config) (original : Recording) (replayed : List Event),
      (original.events.map Event.eventId).Nodup → FaithfulReplay original.events replayed →
        (∀ e ∈ replayed, e.payload.has "error" = false) →
          AllMatch original.events (compareRun (comparators cfg) original replayed
            (linkStreams original.events replayed)) := by
  intro h
  have hfaithful : FaithfulReplay [Event.brief .httpResponse "res" "a" 0]
      [Event.brief .httpResponse "" "a" 0] := by
    refine ⟨fun _ => "", id, [(_, _)], rfl, rfl, ?_, by decide, by decide, by decide⟩
    simp only [List.forall_mem_cons, List.not_mem_nil, false_implies, implies_true, and_true]
    exact ⟨rfl, rfl, rfl, .nil⟩
  have hall := h {} { recordingId := "rec_1", events := [.brief .httpResponse "res" "a" 0] }
    [.brief .httpResponse "" "a" 0] (by decide) hfaithful (by decide)
  have hlength := congrArg List.length hall.1
  revert hlength
  decide

end InfraReplay
