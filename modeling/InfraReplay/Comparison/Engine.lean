import InfraReplay.Comparison.Normalize

/-!
# Comparators and the pair walk

The two built-in comparators and `compare_run`, which walks an original recording against its
replay. The comparators differ in the fields they look at and in what they normalise, so both are
`compareFields` at their own fields.

`compareRun_eq` is the walk without its loop state: one result for every comparable original, then
a `NEW` row for every comparable replayed event that no original consumed.
-/

namespace InfraReplay

open Python

/-! ### Comparators -/

/-- A `ComparatorPlugin`: the event type it handles and how it judges a pair. -/
structure ComparatorPlugin where
  name : String
  eventType : String
  compare : Event → Event → ComparisonResult

/-- The entry of a diff for one field, absent when the two sides are equal. -/
def diffEntry (key : String) (original replayed : Value) : Dict String Value :=
  if original.eq replayed then []
  else [(key, .dict [("original", original), ("replayed", replayed)])]

/-- What both comparators do, for the fields `(key, original side, replayed side)`. -/
def compareFields (eventType : String) (fields : List (String × Value × Value))
    (original replayed : Event) : ComparisonResult :=
  let result : ComparisonResult :=
    { replayRecordingId := replayed.recordingId
      originalEventId := some original.eventId
      replayedEventId := some replayed.eventId
      eventType := eventType
      category := .match }
  -- an error of the replay hides every other difference
  if replayed.payload.has "error" then
    { result with category := .error, diff := [("error", replayed.payload.getD "error")] }
  else
    let diff := fields.flatMap fun f => diffEntry f.1 f.2.1 f.2.2
    if diff.isEmpty then result
    else { result with category := .different, diff := diff }

/-- The diff of the fields is empty when every field is equal. -/
theorem flatMap_diffEntry_eq_nil {fields : List (String × Value × Value)} :
    (fields.flatMap fun f => diffEntry f.1 f.2.1 f.2.2) = [] ↔
      ∀ f ∈ fields, f.2.1.eq f.2.2 = true := by
  rw [List.flatMap_eq_nil_iff]
  refine forall₂_congr fun f _ => ?_
  unfold diffEntry
  split_ifs with h <;> simp [h]

/-- A comparator answers `MATCH` when the replay carries no error and every field is equal. -/
theorem category_compareFields_iff {eventType : String} {fields : List (String × Value × Value)}
    {original replayed : Event} (herr : replayed.payload.has "error" = false) :
    (compareFields eventType fields original replayed).category = .match ↔
      ∀ f ∈ fields, f.2.1.eq f.2.2 = true := by
  rw [← flatMap_diffEntry_eq_nil]
  unfold compareFields
  dsimp only
  rw [herr, if_neg (by simp)]
  cases hd : (fields.flatMap fun f => diffEntry f.1 f.2.1 f.2.2) with
  | nil => simp
  | cons f rest => simp

/-- A `MATCH` has an empty diff. -/
theorem diff_compareFields_of_match {eventType : String}
    {fields : List (String × Value × Value)} {original replayed : Event}
    (h : (compareFields eventType fields original replayed).category = .match) :
    (compareFields eventType fields original replayed).diff = [] := by
  unfold compareFields at h ⊢
  dsimp only at h ⊢
  -- in the other two branches the category is not `MATCH`
  split_ifs at h ⊢
  rfl

/-- `HttpComparator`: the status as it is, the body normalised. -/
def httpComparator (cfg : Config) : ComparatorPlugin where
  name := "http_comparator"
  eventType := "http.response"
  compare original replayed :=
    compareFields "http.response"
      [("status", original.payload.getD "status", replayed.payload.getD "status"),
        ("body", normalize cfg (original.payload.getD "body"),
          normalize cfg (replayed.payload.getD "body"))]
      original replayed

/-- `PostgresComparator`: the row count and the rows, both normalised. -/
def postgresComparator (cfg : Config) : ComparatorPlugin where
  name := "postgres_comparator"
  eventType := "postgres.result"
  compare original replayed :=
    compareFields "postgres.result"
      (["rows_affected", "rows"].map fun key =>
        (key, normalize cfg (original.payload.getD key), normalize cfg (replayed.payload.getD key)))
      original replayed

/-- The comparators registered under the entry-point group. -/
def comparators (cfg : Config) : List ComparatorPlugin :=
  [httpComparator cfg, postgresComparator cfg]

/-- `registry.comparator_for(event_type)`. -/
def comparatorFor (registry : List ComparatorPlugin) (eventType : String) :
    Option ComparatorPlugin :=
  registry.find? fun c => c.eventType = eventType

/-! ### The walk -/

section Walk

variable (registry : List ComparatorPlugin)

/-- The replayed event an original is linked to: `replay_by_id.get(replay_eid) if replay_eid`. -/
def partner (replayById : Dict String Event) (links : Dict String String) (src : Event) :
    Option Event :=
  match links.get? src.eventId with
  -- the empty id is false
  | some replayEid => if replayEid = "" then none else replayById.get? replayEid
  | none => none

/-- The set `consumed` and the results so far. -/
structure Walk where
  consumed : List String := []
  results : List ComparisonResult := []

/-- The row of an original without a partner. -/
def missingResult (replayId : String) (src : Event) : ComparisonResult :=
  { replayRecordingId := replayId
    originalEventId := some src.eventId
    eventType := src.eventType.value
    category := .missing }

/-- The row of a replayed event that no original maps to. -/
def newResult (replayId : String) (event : Event) : ComparisonResult :=
  { replayRecordingId := replayId
    replayedEventId := some event.eventId
    eventType := event.eventType.value
    category := .new }

/-- One turn of the loop over the originals. -/
def walkOriginal (replayById : Dict String Event) (replayId : String)
    (links : Dict String String) (walk : Walk) (src : Event) : Walk :=
  match comparatorFor registry src.eventType.value with
  -- an event that nothing compares makes no row
  | none => walk
  | some comparator =>
    match partner replayById links src with
    | none => { walk with results := walk.results ++ [missingResult replayId src] }
    | some event =>
      { consumed := walk.consumed ++ [event.eventId]
        results := walk.results ++ [comparator.compare src event] }

/-- `{e.event_id: e for e in replayed_events}`. -/
def replayById (replayed : List Event) : Dict String Event :=
  Dict.ofPairs (replayed.map fun e => (e.eventId, e))

/-- The recording id the rows of a comparison carry. -/
def replayIdOf (replayed : List Event) : String :=
  (replayed.head?.map Event.recordingId).getD ""

/-- `compare_run`. -/
def compareRun (original : Recording) (replayed : List Event) (links : Dict String String) :
    List ComparisonResult :=
  let walk := original.events.foldl
    (walkOriginal registry (replayById replayed) (replayIdOf replayed) links) {}
  walk.results ++ replayed.filterMap fun event =>
    if event.eventId ∈ walk.consumed then none
    else if (comparatorFor registry event.eventType.value).isNone then none
    else some (newResult (replayIdOf replayed) event)

/-- The row of a comparable original. -/
def resultFor (replayed : List Event) (links : Dict String String) (src : Event) :
    Option ComparisonResult :=
  (comparatorFor registry src.eventType.value).map fun comparator =>
    match partner (replayById replayed) links src with
    | none => missingResult (replayIdOf replayed) src
    | some event => comparator.compare src event

/-- The replayed id a comparable original consumes. -/
def consumes (replayed : List Event) (links : Dict String String) (src : Event) :
    Option String :=
  (comparatorFor registry src.eventType.value).bind fun _ =>
    (partner (replayById replayed) links src).map Event.eventId

variable {registry}

private theorem foldl_walkOriginal (replayed : List Event) (links : Dict String String)
    (originals : List Event) (walk : Walk) :
    originals.foldl (walkOriginal registry (replayById replayed) (replayIdOf replayed) links)
        walk =
      { consumed := walk.consumed ++ originals.filterMap (consumes registry replayed links)
        results := walk.results ++ originals.filterMap (resultFor registry replayed links) } := by
  induction originals generalizing walk with
  | nil => simp
  | cons src originals ih =>
    rw [List.foldl_cons, ih]
    -- each original adds at most one row, and consumes the event of a row that has a partner
    cases hc : comparatorFor registry src.eventType.value with
    | none => simp [walkOriginal, consumes, resultFor, hc]
    | some comparator =>
      cases hp : partner (replayById replayed) links src with
      | none => simp [walkOriginal, consumes, resultFor, hc, hp]
      | some event => simp [walkOriginal, consumes, resultFor, hc, hp]

/-- The walk without its loop state. -/
theorem compareRun_eq (original : Recording) (replayed : List Event)
    (links : Dict String String) :
    compareRun registry original replayed links =
      original.events.filterMap (resultFor registry replayed links) ++
        (replayed.filter fun event =>
          event.eventId ∉ original.events.filterMap (consumes registry replayed links) ∧
            (comparatorFor registry event.eventType.value).isSome).map
          (newResult (replayIdOf replayed)) := by
  rw [compareRun, foldl_walkOriginal]
  simp only [List.nil_append]
  congr 1
  rw [← List.filterMap_eq_map, List.filterMap_filter]
  refine List.filterMap_congr fun event _ => ?_
  -- a replayed event is new when nothing has consumed it and something compares it
  by_cases hmem : event.eventId ∈ original.events.filterMap (consumes registry replayed links)
  · simp [hmem]
  · cases hc : comparatorFor registry event.eventType.value <;> simp [hmem]

end Walk

end InfraReplay
