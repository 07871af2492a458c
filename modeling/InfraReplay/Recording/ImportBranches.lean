import InfraReplay.Recording.Importable

/-!
# The two branches of an import

A bundle that is imported under its own ids and one that is re-keyed should come out alike. They do,
up to the renaming, exactly when every event carries the id of its recording and every parent link
points inside the bundle (`branchesAgree_iff`): the one branch keeps a link to an unknown event, the
other drops it before correlation fills what is empty.

`proposals` lists the events in the order of `correlate` with the parent that correlation would give
each, so that the parents of both branches can be compared event by event.
-/

namespace InfraReplay

open Python

/-! ### What correlation proposes -/

/-- The loop of `_link`: each event with the parent `_parent_for` finds for it. -/
def proposalsFrom (root : Option Event) : Option Event → List Event → List (Event × Option String)
  | _, [] => []
  | lastQuery, event :: group =>
    (event, parentFor event root lastQuery) ::
      proposalsFrom root (if event.eventType = .pgQuery then some event else lastQuery) group

/-- The events in the order of `correlate`, each with the parent that is proposed for it. -/
def proposals (events : List Event) : List (Event × Option String) :=
  (groups events).flatMap fun group =>
    proposalsFrom (group.find? fun e => e.eventType = .httpRequest) none group

/-- `event.parent_event_id or proposal`. -/
def filled (p : Event × Option String) : Event :=
  { p.1 with parentEventId := orElse p.1.parentEventId p.2 }

/-- The causal pass is a list of proposals, each filled in where no parent is recorded. -/
theorem linkFrom_eq (root lastQuery : Option Event) (group : List Event) :
    linkFrom root lastQuery group = (proposalsFrom root lastQuery group).map filled := by
  induction group generalizing lastQuery with
  | nil => rfl
  | cons e group ih =>
    rw [linkFrom, proposalsFrom, List.map_cons, ih]
    rfl

/-- Correlation fills in the proposals and numbers the events. -/
theorem correlate_eq (events : List Event) :
    correlate events = numberFrom 0 ((proposals events).map filled) := by
  rw [correlate, proposals, List.map_flatMap]
  congr 1
  exact List.flatMap_congr fun group _ => linkFrom_eq _ none group

/-- There is one proposal for each event, in order. -/
theorem map_fst_proposalsFrom (root lastQuery : Option Event) (group : List Event) :
    (proposalsFrom root lastQuery group).map Prod.fst = group := by
  induction group generalizing lastQuery with
  | nil => rfl
  | cons e group ih => rw [proposalsFrom, List.map_cons, ih]

/-- Over a whole stream the proposals list its events, grouped. -/
theorem map_fst_proposals_perm (events : List Event) :
    ((proposals events).map Prod.fst).Perm events := by
  have hflat : (proposals events).map Prod.fst = (groups events).flatten := by
    rw [proposals, List.map_flatMap, ← List.flatMap_id]
    exact List.flatMap_congr fun group _ => map_fst_proposalsFrom _ none group
  rw [hflat]
  exact flatten_groups_perm events

/-- A proposed parent is an event of the run, or one that came before it. -/
theorem mem_of_mem_proposalsFrom {all group : List Event} {root lastQuery : Option Event}
    (hroot : ∀ e ∈ root, e ∈ all) (hlast : ∀ e ∈ lastQuery, e ∈ all)
    (hsub : ∀ e ∈ group, e ∈ all) {e : Event} {parent : String}
    (h : (e, some parent) ∈ proposalsFrom root lastQuery group) :
    parent ∈ all.map Event.eventId := by
  induction group generalizing lastQuery with
  | nil => cases h
  | cons e₀ group ih =>
    rw [proposalsFrom] at h
    rcases List.mem_cons.mp h with heq | h
    · exact mem_of_parentFor_eq_some hroot hlast (Prod.ext_iff.mp heq).2.symm
    · refine ih (fun q hq => ?_) (fun e he => hsub e (List.mem_cons_of_mem _ he)) h
      split_ifs at hq
      · rw [← Option.mem_some.mp hq]
        exact hsub e₀ (by simp)
      · exact hlast q hq

/-- A proposed parent is an event of the recording. -/
theorem mem_of_mem_proposals {events : List Event} {e : Event} {parent : String}
    (h : (e, some parent) ∈ proposals events) : parent ∈ events.map Event.eventId := by
  obtain ⟨group, hgroup, h⟩ := List.mem_flatMap.mp h
  have hmem : parent ∈ group.map Event.eventId := mem_of_mem_proposalsFrom
    (fun e he => List.mem_of_find?_eq_some he) (by simp) (fun e he => he) h
  obtain ⟨e', he', hid⟩ := List.mem_map.mp hmem
  exact List.mem_map.mpr ⟨e',
    (flatten_groups_perm events).mem_iff.mp (List.mem_flatten_of_mem hgroup he'), hid⟩

/-! ### Correlation under other ids -/

/-- A change of ids, `rename` on the event ids: nothing that correlation orders or groups by
changes. -/
structure Relabels (f : Event → Event) (rename : String → String) : Prop where
  eventId : ∀ e, (f e).eventId = rename e.eventId
  eventType : ∀ e, (f e).eventType = e.eventType
  correlationId : ∀ e, (f e).correlationId = e.correlationId
  clock : ∀ e, (f e).clock = e.clock

section Relabels

variable {f : Event → Event} {rename : String → String}

/-- The proposed parent goes through a relabelling. -/
theorem parentFor_map (hf : Relabels f rename) (e : Event) (root lastQuery : Option Event) :
    parentFor (f e) (root.map f) (lastQuery.map f) = (parentFor e root lastQuery).map rename := by
  have hids : ∀ o : Option Event, (o.map f).map Event.eventId =
      (o.map Event.eventId).map rename := by
    intro o
    cases o with
    | none => rfl
    | some e => exact congrArg some (hf.eventId e)
  unfold parentFor
  rw [hf.eventType, Option.isSome_map]
  split_ifs
  · rfl
  · exact hids lastQuery
  · exact hids root

/-- So do the proposals of a group. -/
theorem proposalsFrom_map (hf : Relabels f rename) (root lastQuery : Option Event)
    (group : List Event) :
    proposalsFrom (root.map f) (lastQuery.map f) (group.map f) =
      (proposalsFrom root lastQuery group).map fun p => (f p.1, p.2.map rename) := by
  induction group generalizing lastQuery with
  | nil => rfl
  | cons e group ih =>
    rw [List.map_cons, proposalsFrom, proposalsFrom, List.map_cons, lastQuery_map hf.eventType, ih,
      parentFor_map hf]

/-- Relabelled events fall into the same groups. -/
theorem groups_map (hf : Relabels f rename) (events : List Event) :
    groups (events.map f) = (groups events).map (List.map f) := by
  have hgroup : groupOf (events.map f) = List.map f ∘ groupOf events := by
    funext c
    rw [groupOf, List.filter_map, List.sortBy_map]
    simp only [groupOf, Function.comp_apply, Function.comp_def, hf.correlationId, hf.clock]
  have hclock : ∀ group : List Event, groupClock (group.map f) = groupClock group := by
    intro group
    cases group with
    | nil => rfl
    | cons e group => exact hf.clock e
  have hids : (events.map f).map Event.correlationId = events.map Event.correlationId := by
    rw [List.map_map]
    exact List.map_congr_left fun e _ => hf.correlationId e
  rw [groups_eq, groups_eq, hids, hgroup, ← List.map_map, List.sortBy_map]
  simp only [hclock]

/-- The proposals of a stream go through a relabelling. -/
theorem proposals_map (hf : Relabels f rename) (events : List Event) :
    proposals (events.map f) = (proposals events).map fun p => (f p.1, p.2.map rename) := by
  rw [proposals, groups_map hf, List.flatMap_map, proposals, List.map_flatMap]
  refine List.flatMap_congr fun group _ => ?_
  rw [← proposalsFrom_map hf, List.find?_map]
  simp only [Function.comp_def, hf.eventType]
  rfl

end Relabels

/-! ### The links of the two branches -/

/-- The ids that events mention: their own and those of their parents. -/
def mentioned (events : List Event) : List String :=
  events.flatMap fun e => e.eventId :: e.parentEventId.toList

/-- The ids that a stream mentions are those of its events and of their parents. -/
theorem mem_mentioned {events : List Event} {id : String} :
    id ∈ mentioned events ↔ ∃ e ∈ events, id = e.eventId ∨ e.parentEventId = some id := by
  simp [mentioned]

/-- An event under other ids. -/
def renamed (recordingId : String) (rename : String → String) (e : Event) : Event :=
  { e with
    recordingId := recordingId
    eventId := rename e.eventId
    parentEventId := e.parentEventId.map rename }

/-- `r'` is `r` under other ids: the same events in the same order, and the renaming tells all ids
apart that are mentioned. -/
structure EqualUpTo (rename : String → String) (r r' : Recording) : Prop where
  injective : ∀ id ∈ mentioned r.events, ∀ id' ∈ mentioned r.events,
    rename id = rename id' → id = id'
  events : r'.events = r.events.map (renamed r'.recordingId rename)
  project : r'.project = r.project
  kind : r'.kind = r.kind
  status : r'.status = r.status
  title : r'.title = r.title
  capturePlugin : r'.capturePlugin = r.capturePlugin
  sourceRecordingId : r'.sourceRecordingId = r.sourceRecordingId
  target : r'.target = r.target

/-- The parent of an event, with the proposal for it, comes out alike whether or not the ids are
renamed: it points inside, or it is the empty string, which is no link. Where an event has the empty
string for an id, the proposal has to be that event. -/
def LinkSurvives (ids : List String) (p : Event × Option String) : Prop :=
  ∀ parent, p.1.parentEventId = some parent →
    parent ≠ "" ∧ parent ∈ ids ∨ parent = "" ∧ ("" ∈ ids → p.2 = some "")

section Links

variable {events : List Event} {eventHexes : List String} {recordingId : String}

/-- Re-keying relabels: it keeps all that `correlate` goes by. -/
theorem relabels_rekeyEvent (recordingId : String) (events : List Event)
    (eventHexes : List String) :
    Relabels (rekeyEvent recordingId (renamedIds events eventHexes))
      (renameId events eventHexes) where
  eventId _ := rfl
  eventType _ := rfl
  correlationId _ := rfl
  clock _ := rfl

/-- An id of no event has no new id. -/
theorem get?_renamedIds_eq_none {id : String} (h : id ∉ events.map Event.eventId) :
    (renamedIds events eventHexes).get? id = none := by
  refine Dict.get?_eq_none_iff.mpr fun hmem => h ?_
  obtain ⟨p, hp, rfl⟩ := List.mem_map.mp hmem
  exact (List.of_mem_zip (Dict.mem_of_mem_ofPairs hp)).1

/-- The new id of an event. -/
theorem get?_renamedIds_eq_some (hnd : (events.map Event.eventId).Nodup)
    (hlength : eventHexes.length = events.length) {id : String}
    (h : id ∈ events.map Event.eventId) :
    (renamedIds events eventHexes).get? id = some (renameId events eventHexes id) ∧
      renameId events eventHexes id ≠ "" := by
  obtain ⟨hex, -, hget⟩ := exists_renameId hnd hlength h
  have hid : renameId events eventHexes id = newId "evt" hex := by
    rw [renameId, hget]
    rfl
  rw [hget, hid]
  exact ⟨rfl, newId_ne "evt" hex⟩

/-- Links that survive come out alike under the new ids. -/
theorem filled_rekeyEvent (hnd : (events.map Event.eventId).Nodup)
    (hlength : eventHexes.length = events.length) {p : Event × Option String}
    (h : LinkSurvives (events.map Event.eventId) p) :
    filled (rekeyEvent recordingId (renamedIds events eventHexes) p.1,
        p.2.map (renameId events eventHexes)) =
      renamed recordingId (renameId events eventHexes) (filled p) := by
  have hparent : orElse (p.1.parentEventId.bind (renamedIds events eventHexes).get?)
      (p.2.map (renameId events eventHexes)) =
        (orElse p.1.parentEventId p.2).map (renameId events eventHexes) := by
    cases hp : p.1.parentEventId with
    | none => rfl
    | some parent =>
      rw [Option.bind_some]
      rcases h parent hp with ⟨hne, hmem⟩ | ⟨rfl, hempty⟩
      -- a parent among the events keeps its place, renamed
      · obtain ⟨hget, hne'⟩ := get?_renamedIds_eq_some hnd hlength hmem
        rw [hget]
        simp [orElse, hne, hne']
      -- the empty id is falsy, so the proposal takes its place unless an event has that id
      · by_cases hmem : "" ∈ events.map Event.eventId
        · obtain ⟨hget, hne'⟩ := get?_renamedIds_eq_some hnd hlength hmem
          rw [hget, hempty hmem]
          simp [orElse, hne']
        · rw [get?_renamedIds_eq_none hmem]
          simp [orElse]
  show Event.mk _ _ _ _ _ _ _ _ _ _ _ _ _ = _
  rw [rekeyEvent, renamed, filled]
  simp only
  rw [hparent]
  rfl

/-- A link that comes out alike under an injective renaming survives. -/
theorem linkSurvives_of_filled (hnd : (events.map Event.eventId).Nodup)
    (hlength : eventHexes.length = events.length) {rename : String → String}
    {p : Event × Option String}
    (hrename : ∀ id ∈ events.map Event.eventId, rename id = renameId events eventHexes id)
    (hproposal : ∀ parent, p.2 = some parent → parent ∈ events.map Event.eventId)
    (hinjective : ∀ id ∈ events.map Event.eventId, ∀ id',
      (filled p).parentEventId = some id' → rename id = rename id' → id = id')
    (h : orElse (p.1.parentEventId.bind (renamedIds events eventHexes).get?)
      (p.2.map (renameId events eventHexes)) = (orElse p.1.parentEventId p.2).map rename) :
    LinkSurvives (events.map Event.eventId) p := by
  intro parent hp
  rw [hp, Option.bind_some] at h
  by_cases hne : parent = ""
  · subst hne
    refine .inr ⟨rfl, fun hmem => ?_⟩
    -- the renamed empty id is a link, so the other branch must have proposed that event
    obtain ⟨hget, hne'⟩ := get?_renamedIds_eq_some hnd hlength hmem
    rw [hget] at h
    simp only [orElse, Option.some.injEq, hne', reduceCtorEq, or_self, if_false, or_true,
      if_true] at h
    obtain ⟨q, hq, heq⟩ := Option.map_eq_some_iff.mp h.symm
    have hfilled : (filled p).parentEventId = some q := by
      show orElse p.1.parentEventId p.2 = some q
      rw [hp, orElse, if_pos (.inr rfl), hq]
    rw [← hinjective "" hmem q hfilled ((hrename "" hmem).trans heq.symm)] at hq
    exact hq
  · refine .inl ⟨hne, ?_⟩
    by_contra hmem
    -- the link was dropped, and what was proposed instead is another event
    rw [get?_renamedIds_eq_none hmem] at h
    simp only [orElse, Option.some.injEq, hne, reduceCtorEq, or_self, if_false, true_or,
      if_true, Option.map_some] at h
    obtain ⟨q, hq, heq⟩ := Option.map_eq_some_iff.mp h
    have hqmem := hproposal q hq
    have hfilled : (filled p).parentEventId = some parent := by
      show orElse p.1.parentEventId p.2 = some parent
      rw [hp, orElse, if_neg (by simp [hne])]
    have hsame := hinjective q hqmem parent hfilled ((hrename q hqmem).trans heq)
    exact hmem (hsame ▸ hqmem)

/-- Numbering mentions no other ids. -/
theorem mentioned_numberFrom (n : ℤ) (events : List Event) :
    mentioned (numberFrom n events) = mentioned events := by
  rw [mentioned, mentioned, List.flatMap_def, List.flatMap_def, map_numberFrom fun _ _ => rfl]

/-- The re-keyed events get the proposals of the events, renamed. -/
theorem correlate_map_rekeyEvent (recordingId : String) (events : List Event)
    (eventHexes : List String) (stored : List Event) :
    correlate (stored.map (rekeyEvent recordingId (renamedIds events eventHexes))) =
      numberFrom 0 ((proposals stored).map fun p =>
        filled (rekeyEvent recordingId (renamedIds events eventHexes) p.1,
          p.2.map (renameId events eventHexes))) := by
  rw [correlate_eq, proposals_map (relabels_rekeyEvent recordingId events eventHexes),
    List.map_map]
  rfl

/-- Renaming keeps the numbers. -/
theorem map_renamed_correlate (recordingId : String) (rename : String → String)
    (stored : List Event) :
    (correlate stored).map (renamed recordingId rename) =
      numberFrom 0 ((proposals stored).map fun p => renamed recordingId rename (filled p)) := by
  rw [correlate_eq, ← numberFrom_map (f := renamed recordingId rename) (fun _ _ => rfl),
    List.map_map]
  rfl

/-- The parent of a link that survives is an event. -/
theorem mem_of_linkSurvives {ids : List String} {p : Event × Option String} {id : String}
    (h : LinkSurvives ids p) (hproposal : ∀ parent, p.2 = some parent → parent ∈ ids)
    (hid : (filled p).parentEventId = some id) : id ∈ ids := by
  have hid : orElse p.1.parentEventId p.2 = some id := hid
  cases hp : p.1.parentEventId with
  | none =>
    rw [hp] at hid
    exact hproposal id hid
  | some parent =>
    rw [hp] at hid
    rcases h parent hp with ⟨hne, hmem⟩ | ⟨rfl, -⟩
    · rw [orElse, if_neg (by simp [hne])] at hid
      exact Option.some.inj hid ▸ hmem
    · exact hproposal id hid

/-- Every event that was stored has its place among the proposals. -/
theorem exists_mem_proposals {stored : List Event}
    (hstored : (stored.map Event.eventId).Perm (events.map Event.eventId)) {id : String}
    (hid : id ∈ events.map Event.eventId) : ∃ p ∈ proposals stored, p.1.eventId = id := by
  obtain ⟨e, he, rfl⟩ := List.mem_map.mp (hstored.mem_iff.mpr hid)
  obtain ⟨p, hp, rfl⟩ := List.mem_map.mp ((map_fst_proposals_perm stored).mem_iff.mpr he)
  exact ⟨p, hp, rfl⟩

/-- **Correlation under new ids.** The re-keyed events correlate to the same list, up to an
injective renaming, exactly when every link survives. -/
theorem correlate_rekeyEvent_iff (recordingId : String) (hnd : (events.map Event.eventId).Nodup)
    (hlength : eventHexes.length = events.length) (hhexes : eventHexes.Nodup) {stored : List Event}
    (hstored : (stored.map Event.eventId).Perm (events.map Event.eventId)) :
    (∃ rename : String → String,
      (∀ id ∈ mentioned (correlate stored), ∀ id' ∈ mentioned (correlate stored),
        rename id = rename id' → id = id') ∧
      correlate (stored.map (rekeyEvent recordingId (renamedIds events eventHexes))) =
        (correlate stored).map (renamed recordingId rename)) ↔
      ∀ p ∈ proposals stored, LinkSurvives (events.map Event.eventId) p := by
  have hmentioned : mentioned (correlate stored) = mentioned ((proposals stored).map filled) := by
    rw [correlate_eq, mentioned_numberFrom]
  have hproposal : ∀ p ∈ proposals stored, ∀ parent, p.2 = some parent →
      parent ∈ events.map Event.eventId := by
    rintro ⟨e, proposal⟩ hp parent rfl
    exact hstored.mem_iff.mp (mem_of_mem_proposals hp)
  have hown : ∀ p ∈ proposals stored, p.1.eventId ∈ events.map Event.eventId := fun p hp =>
    hstored.mem_iff.mp (List.mem_map_of_mem
      ((map_fst_proposals_perm stored).mem_iff.mp (List.mem_map_of_mem hp)))
  rw [hmentioned, correlate_map_rekeyEvent]
  constructor
  · rintro ⟨rename, hinjective, heq⟩ p hp
    rw [map_renamed_correlate] at heq
    -- compare the ids and the parents place by place
    have hids := congrArg (List.map Event.eventId) heq
    have hparents := congrArg (List.map Event.parentEventId) heq
    rw [map_numberFrom (fun _ _ => rfl), map_numberFrom (fun _ _ => rfl), List.map_map,
      List.map_map, List.map_inj_left] at hids hparents
    have hrename : ∀ id ∈ events.map Event.eventId, rename id = renameId events eventHexes id := by
      intro id hid
      obtain ⟨q, hq, rfl⟩ := exists_mem_proposals hstored hid
      exact (hids q hq).symm
    refine linkSurvives_of_filled hnd hlength hrename (hproposal p hp) ?_ (hparents p hp)
    intro id hid id' hid'
    refine hinjective id ?_ id' ?_
    · obtain ⟨q, hq, rfl⟩ := exists_mem_proposals hstored hid
      exact mem_mentioned.mpr ⟨filled q, List.mem_map_of_mem hq, .inl rfl⟩
    · exact mem_mentioned.mpr ⟨filled p, List.mem_map_of_mem hp, .inr hid'⟩
  · intro h
    refine ⟨renameId events eventHexes, ?_, ?_⟩
    · have hinside : ∀ id ∈ mentioned ((proposals stored).map filled),
          id ∈ events.map Event.eventId := by
        intro id hid
        obtain ⟨e, he, hid⟩ := mem_mentioned.mp hid
        obtain ⟨p, hp, rfl⟩ := List.mem_map.mp he
        rcases hid with rfl | hid
        · exact hown p hp
        · exact mem_of_linkSurvives (h p hp) (hproposal p hp) hid
      exact fun id hid id' hid' heq =>
        renameId_inj hnd hlength hhexes (hinside id hid) (hinside id' hid') heq
    · rw [map_renamed_correlate]
      exact congrArg (numberFrom 0)
        (List.map_congr_left fun p hp => filled_rekeyEvent hnd hlength (h p hp))

end Links

/-! ### The two imports -/

/-- The events of a bundle as the query reads them back. -/
def readBack (order : RowOrder) (events : List Event) : List Event :=
  (order.rows (redactedRows events [])).map EventRow.event

/-- The bundle imports into a store without rows and into one that holds its recording, both kept by
the database, and the two recordings are equal up to a renaming of ids. -/
def BranchesAgree (models : Models) (db : Database) (order : RowOrder) (hex recordingHex : String)
    (eventHexes : List String) (doc : Dict String Value) (d₁ d₂ : Store) : Prop :=
  ∃ r₁ n₁ s₁ r₂ n₂ s₂ rename,
    (importRecording models order hex recordingHex eventHexes doc).runUnder db.refuses 0 d₁ =
      (.ok r₁, n₁, s₁) ∧
    (importRecording models order hex recordingHex eventHexes doc).runUnder db.refuses 0 d₂ =
      (.ok r₂, n₂, s₂) ∧
    EqualUpTo rename r₁ r₂

/-- What both branches need to agree on a recording. -/
structure KeepsShape (db : Database) (order : RowOrder) (hex recordingHex : String)
    (eventHexes : List String) (d₁ d₂ : Store) (r : Recording) : Prop where
  kept : Importable db hex d₁ r
  rekeyed : Importable db hex d₂ (rekey recordingHex eventHexes r)
  links : ∀ p ∈ proposals (readBack order r.events), LinkSurvives (r.events.map Event.eventId) p

section Imports

variable {models : Models} {db : Database} {order : RowOrder} {hex recordingHex : String}
  {eventHexes : List String} {doc : Dict String Value} {r : Recording} {d₁ d₂ : Store}

/-- What is read back has the ids that were stored. -/
theorem map_eventId_readBack_perm (order : RowOrder) (events : List Event) :
    ((readBack order events).map Event.eventId).Perm (events.map Event.eventId) := by
  rw [readBack, List.map_map, ← map_eventId_redactedRows events []]
  exact (order.perm _).map EventRow.eventId

/-- Where nothing is stored under the id of an importable recording, all its events are its own. -/
theorem Importable.owned (h : Importable db hex d₁ r) (hevents : d₁.events.rows = []) :
    ∀ e ∈ r.events, e.recordingId = r.recordingId := by
  have hcount := h.count
  rw [Store.eventRows, hevents, List.filter_nil, List.length_nil, eq_comm,
    List.length_eq_zero_iff, List.filter_eq_nil_iff] at hcount
  exact fun e he => by simpa using hcount e he

variable (recordingHex eventHexes) in
/-- A recording whose id is taken is re-keyed. -/
theorem settled_eq_rekey
    (htaken : r.recordingId ∈ d₂.recordings.rows.map RecordingRow.recordingId) :
    settled recordingHex eventHexes d₂ r = rekey recordingHex eventHexes r :=
  if_pos (Option.isSome_iff_ne_none.mpr fun hnone => Table.find?_eq_none_iff.mp hnone htaken)

variable (recordingHex eventHexes) in
/-- In a store without rows it keeps its ids. -/
theorem settled_eq_self (hrecordings : d₁.recordings.rows = []) :
    settled recordingHex eventHexes d₁ r = r := by
  have hnone : d₁.recordings.find? r.recordingId = none := by
    refine Table.find?_eq_none_iff.mpr ?_
    rw [hrecordings]
    exact List.not_mem_nil
  rw [settled, hnone, if_neg (by simp)]

variable (order hex recordingHex eventHexes) in
/-- The branch that keeps the ids, up to `finish_recording`. -/
theorem run_importRecording_kept (hparse : parseBundle models doc = .ok r)
    (hnd : (r.events.map Event.eventId).Nodup) (hrecordings : d₁.recordings.rows = [])
    (hevents : d₁.events.rows = []) :
    ∃ s, (importRecording models order hex recordingHex eventHexes doc).run d₁ =
        (finishRecording order r.recordingId).run s ∧
      s.recordings.rows = [r.asNew.row hex] ∧ s.events.rows = redactedRows r.events [] ∧
      s.blobs = d₁.blobs := by
  have hfree : (r.asNew.row hex).recordingId ∉
      d₁.recordings.rows.map RecordingRow.recordingId := by
    rw [hrecordings]
    exact List.not_mem_nil
  have hids : ((d₁.events.rows ++ redactedRows r.events []).map EventRow.eventId).Nodup := by
    rwa [hevents, List.nil_append, map_eventId_redactedRows]
  obtain ⟨s, hrun, hrows, hrows', hblobs⟩ := exists_run_openImported_eq d₁ order hfree hids
  rw [hrecordings] at hrows
  rw [hevents] at hrows'
  refine ⟨s, ?_, hrows, hrows', hblobs⟩
  rw [run_importRecording_eq hparse, settled_eq_self recordingHex eventHexes hrecordings]
  exact hrun

/-- The events that the branch reads back when it keeps the ids. -/
theorem eventsFor_of_rows {s : Store} (hevents : s.events.rows = redactedRows r.events [])
    (howned : ∀ e ∈ r.events, e.recordingId = r.recordingId) :
    s.eventsFor order r.recordingId = readBack order r.events := by
  have hall : (r.events.filter fun e => e.recordingId = r.recordingId) = r.events :=
    List.filter_eq_self.mpr fun e he => decide_eq_true (howned e he)
  rw [Store.eventsFor, Store.eventRows, hevents, filter_redactedRows, hall, readBack]

/-- The rows of re-keyed events. -/
theorem redactedRows_rekey (recordingHex : String) (eventHexes : List String) (r : Recording) :
    redactedRows (rekey recordingHex eventHexes r).events [] =
      (redactedRows r.events []).map fun row =>
        { row with
          event := rekeyEvent (newId "rec" recordingHex) (renamedIds r.events eventHexes)
            row.event } := by
  rw [rekey, redactedRows, redactedRows, List.map_map, List.map_map, List.map_map, List.map_map]
  rfl

variable (hex) in
/-- The branch that re-keys finishes the events under their new ids. -/
theorem run_importRecording_rekeyed (hparse : parseBundle models doc = .ok r)
    (hnd : (r.events.map Event.eventId).Nodup) (horder : order.Uniform)
    (htaken : r.recordingId ∈ d₂.recordings.rows.map RecordingRow.recordingId)
    (hfresh : FreshIds d₂ r recordingHex eventHexes) :
    ∃ s, (importRecording models order hex recordingHex eventHexes doc).run d₂ =
        (finishRecording order (newId "rec" recordingHex)).run s ∧
      s.recordings.find? (newId "rec" recordingHex) =
        some ((rekey recordingHex eventHexes r).asNew.row hex) ∧
      s.eventsFor order (newId "rec" recordingHex) = (readBack order r.events).map
        (rekeyEvent (newId "rec" recordingHex) (renamedIds r.events eventHexes)) ∧
      s.blobs = d₂.blobs := by
  have hsettled := settled_eq_rekey recordingHex eventHexes htaken
  have hchosen : (rekey recordingHex eventHexes r).asNew.chosenId hex = newId "rec" recordingHex :=
    chosenId_asNew (newId_ne _ _) hex
  -- the made-up ids are new, so all rows go in
  obtain ⟨s₁, hrow⟩ : ∃ s₁, d₂.addRecording ((rekey recordingHex eventHexes r).asNew.row hex) =
      .ok ((), s₁) := by
    refine Store.exists_addRecording fun hmem => hfresh.recording (.inl ?_)
    rw [← hchosen]
    exact hmem
  have hevents := (Store.addRecording_eq_ok hrow).2.1
  obtain ⟨s₂, hrows⟩ : ∃ s₂, s₁.addEvents
      (redactedRows (rekey recordingHex eventHexes r).events []) = .ok ((), s₂) := by
    refine Store.exists_addEvents_redacted (nodup_rekey hnd hfresh) ?_
    rw [hevents]
    exact (isNew_rekey hnd hfresh).events
  have hfind : s₂.recordings.find? (newId "rec" recordingHex) =
      some ((rekey recordingHex eventHexes r).asNew.row hex) := by
    rw [(Store.addEvents_eq_ok hrows).2.1, ← hchosen]
    exact Store.find?_addRecording hrow
  -- no other row carries the made-up recording id
  have hown : s₂.eventRows (newId "rec" recordingHex) =
      redactedRows (rekey recordingHex eventHexes r).events [] := by
    rw [eventRows_addEvents_owned hrows fun e he => ?_, Store.eventRows, hevents,
      List.filter_eq_nil_iff.mpr, List.nil_append]
    · intro row hmem heq
      exact hfresh.recording (.inr (List.mem_map.mpr ⟨row, hmem, of_decide_eq_true heq⟩))
    · obtain ⟨e₀, -, rfl⟩ := List.mem_map.mp he
      rfl
  have hback : s₂.eventsFor order (newId "rec" recordingHex) = (readBack order r.events).map
      (rekeyEvent (newId "rec" recordingHex) (renamedIds r.events eventHexes)) := by
    have hrows := horder (fun row => { row with
      event := rekeyEvent (newId "rec" recordingHex) (renamedIds r.events eventHexes) row.event })
      (fun _ => rfl) (redactedRows r.events [])
    rw [Store.eventsFor, hown, redactedRows_rekey, hrows, List.map_map, readBack, List.map_map]
    rfl
  refine ⟨s₂, ?_, hfind, hback, ?_⟩
  · rw [run_importRecording_eq hparse, hsettled]
    exact run_openImported_eq hrow hrows order
  · rw [(Store.addEvents_eq_ok hrows).2.2.2, (Store.addRecording_eq_ok hrow).2.2.2]

/-- **The two branches.** A bundle with distinct event ids comes out alike, up to a renaming of ids,
where its ids are kept and where they are made up, exactly when `KeepsShape` holds of it. -/
theorem branchesAgree_iff (horder : order.Uniform) (hparse : parseBundle models doc = .ok r)
    (hnd : (r.events.map Event.eventId).Nodup) (hrecordings : d₁.recordings.rows = [])
    (hevents : d₁.events.rows = []) (hd₂ : db.holds d₂ = true)
    (htaken : r.recordingId ∈ d₂.recordings.rows.map RecordingRow.recordingId)
    (hfresh : FreshIds d₂ r recordingHex eventHexes) (hex : String) :
    BranchesAgree models db order hex recordingHex eventHexes doc d₁ d₂ ↔
      KeepsShape db order hex recordingHex eventHexes d₁ d₂ r := by
  have hd₁ : db.holds d₁ = true := by
    rw [Database.holds_iff, hrecordings, hevents]
    simp
  obtain ⟨s, hkeep, hrows, hrows', hblobs⟩ := run_importRecording_kept order hex recordingHex
    eventHexes hparse hnd hrecordings hevents
  obtain ⟨s', hrekey, hfind', hback', hblobs'⟩ :=
    run_importRecording_rekeyed hex hparse hnd horder htaken hfresh
  have hiff := correlate_rekeyEvent_iff (newId "rec" recordingHex) hnd
    hfresh.length hfresh.nodup (map_eventId_readBack_perm order r.events)
  have hid : (rekey recordingHex eventHexes r).asNew.chosenId hex = newId "rec" recordingHex :=
    chosenId_asNew (newId_ne _ _) hex
  have hback : (∀ e ∈ r.events, e.recordingId = r.recordingId) →
      s.eventsFor order r.recordingId = readBack order r.events := eventsFor_of_rows hrows'
  -- the status that each branch reads
  have hopened₁ := runUnder_importRecording_eq hparse (n := 0)
    (Database.refuses_eq_none_iff.mpr hd₁) order hex recordingHex eventHexes
  rw [settled_eq_self recordingHex eventHexes hrecordings] at hopened₁
  have hopened₂ := runUnder_importRecording_eq hparse (n := 0)
    (Database.refuses_eq_none_iff.mpr hd₂) order hex recordingHex eventHexes
  rw [settled_eq_rekey recordingHex eventHexes htaken] at hopened₂
  have huncaught := uncaught_importRecording models order hex recordingHex eventHexes doc
  constructor
  · rintro ⟨r₁, n₁, s₁, r₂, n₂, s₂, rename, hunder₁, hunder₂, hequal⟩
    have hrun₁ := hkeep.symm.trans (huncaught.run_of_runUnder hunder₁)
    have hrun₂ := hrekey.symm.trans (huncaught.run_of_runUnder hunder₂)
    obtain ⟨row₁, path₁, -, -, -, rfl, -⟩ := exists_of_run_finishRecording hrun₁
    obtain ⟨row₂, path₂, hrow₂, -, -, rfl, -⟩ := exists_of_run_finishRecording hrun₂
    obtain rfl := Option.some.inj (hfind'.symm.trans hrow₂)
    rw [hback'] at hunder₂ hequal
    have hlength₂ : (correlate ((readBack order r.events).map (rekeyEvent
        (newId "rec" recordingHex) (renamedIds r.events eventHexes)))).length =
          r.events.length := by
      rw [length_correlate, List.length_map, readBack, List.length_map, (order.perm _).length_eq,
        length_redactedRows]
    have hlength₁ : (correlate (s.eventsFor order r.recordingId)).length = r.events.length := by
      have hlengths := congrArg List.length hequal.events
      simpa only [rowToRecording, List.length_map, hlength₂, eq_comm] using hlengths
    have hkept : Importable db hex d₁ r :=
      importable_of_runUnder hd₁ (fun _ => by rw [hrecordings]; exact List.not_mem_nil)
        (hopened₁.symm.trans hunder₁) hlength₁
    have hrekeyed : Importable db hex d₂ (rekey recordingHex eventHexes r) :=
      importable_of_runUnder hd₂ (fun hempty => absurd hempty (newId_ne _ _))
        (hopened₂.symm.trans hunder₂) (hlength₂.trans (List.length_map _).symm)
    refine ⟨hkept, hrekeyed, hiff.mp ⟨rename, ?_⟩⟩
    have hall : correlate ((readBack order r.events).map
        (rekeyEvent (newId "rec" recordingHex) (renamedIds r.events eventHexes))) =
          (correlate (s.eventsFor order r.recordingId)).map
            (renamed ((rekey recordingHex eventHexes r).asNew.chosenId hex) rename) :=
      hequal.events
    have howned := hback (hkept.owned hevents)
    rw [hid, howned] at hall
    rw [← howned] at hall ⊢
    exact ⟨hequal.injective, hall⟩
  · intro h
    obtain ⟨r₁, n₁, s₁, hunder₁, -⟩ := h.kept.runUnder_openImported hd₁ order 1
    obtain ⟨r₂, n₂, s₂, hunder₂, -⟩ := h.rekeyed.runUnder_openImported hd₂ order 1
    have hrun₁ := hkeep.symm.trans (huncaught.run_of_runUnder (hopened₁.trans hunder₁))
    have hrun₂ := hrekey.symm.trans (huncaught.run_of_runUnder (hopened₂.trans hunder₂))
    obtain ⟨row₁, path₁, hrow₁, -, -, rfl, -⟩ := exists_of_run_finishRecording hrun₁
    obtain ⟨row₂, path₂, hrow₂, -, -, rfl, -⟩ := exists_of_run_finishRecording hrun₂
    obtain rfl := Option.some.inj (hfind'.symm.trans hrow₂)
    obtain rfl : row₁ = r.asNew.row hex := by
      have hmem := (Table.find?_eq_some_iff.mp hrow₁).1
      rw [hrows] at hmem
      exact List.mem_singleton.mp hmem
    obtain ⟨rename, hinjective, hcorrelate⟩ := hiff.mpr h.links
    rw [hback (h.kept.owned hevents)] at hunder₁
    rw [hback'] at hunder₂
    refine ⟨_, _, _, _, _, _, rename, hopened₁.trans hunder₁, hopened₂.trans hunder₂, hinjective,
      ?_, rfl, rfl, rfl, rfl, rfl, rfl, rfl⟩
    show correlate _ = (correlate _).map (renamed ((rekey recordingHex eventHexes r).asNew.chosenId
      hex) rename)
    rw [hid]
    exact hcorrelate

end Imports

/-- A recording of one request, under a parent or not. -/
def singleRequest (parent : Option String) : Recording where
  recordingId := "rec_1"
  events := [{ Event.brief .httpRequest "evt_a" "corr_a" 0 with parentEventId := parent }]

/-- The bundle of one request parses to it. -/
theorem parseBundle_singleRequest (parent : Option String) :
    parseBundle strictModels (buildBundle "" (singleRequest parent)) = .ok (singleRequest parent) :=
  parseBundle_buildBundle strictModels_roundTrip "" (by simp [singleRequest, Event.brief]; rfl)

/-- A store that holds the recording id of `singleRequest`. -/
def takenStore : Store :=
  .withRecording { recordingId := "rec_1", kind := .capture, status := .completed }

/-- Its new ids are fresh in the taken store. -/
theorem freshIds_singleRequest (parent : Option String) :
    FreshIds takenStore (singleRequest parent) "a" ["1"] where
  recording := by
    rintro (h | h)
    · exact absurd h (by decide)
    · exact absurd h (by decide)
  length := rfl
  nodup := by decide
  events := by decide

theorem branchesAgree_singleRequest :
    BranchesAgree strictModels .postgres .bySequence "" "a" ["1"]
      (buildBundle "" (singleRequest none)) .empty takenStore := by
  refine (branchesAgree_iff RowOrder.bySequence_uniform (parseBundle_singleRequest none)
    (by decide) rfl rfl (by decide) (by decide) (freshIds_singleRequest none) "").mpr
    ⟨?_, ?_, fun p hp parent hparent => ?_⟩
  · exact ⟨by decide, by decide, by decide, by decide, by decide, by decide, by decide, by decide⟩
  · exact ⟨by decide, by decide, by decide, by decide, by decide, by decide, by decide, by decide⟩
  · rw [(by decide : ∀ p ∈ proposals (readBack .bySequence (singleRequest none).events),
      p.1.parentEventId = none) p hp] at hparent
    cases hparent

/-- A request whose parent is not in the bundle keeps the link in one branch and loses it in the
other. -/
theorem not_branchesAgree_dangling :
    ¬∀ (models : Models) (db : Database) (order : RowOrder) (hex recordingHex : String)
      (eventHexes : List String) (doc : Dict String Value) (r : Recording) (d₁ d₂ : Store),
      order.Uniform → parseBundle models doc = .ok r → (r.events.map Event.eventId).Nodup →
      d₁.recordings.rows = [] → d₁.events.rows = [] → db.holds d₂ = true →
      r.recordingId ∈ d₂.recordings.rows.map RecordingRow.recordingId →
      FreshIds d₂ r recordingHex eventHexes →
      BranchesAgree models db order hex recordingHex eventHexes doc d₁ d₂ := by
  intro h
  obtain ⟨r₁, n₁, s₁, r₂, n₂, s₂, rename, hunder₁, hunder₂, hequal⟩ := h strictModels .postgres
    .bySequence "" "a" ["1"] (buildBundle "" (singleRequest (some "evt_x"))) _ .empty takenStore
    RowOrder.bySequence_uniform (parseBundle_singleRequest _) (by decide) rfl rfl (by decide)
    (by decide) (freshIds_singleRequest _)
  have huncaught := uncaught_importRecording strictModels .bySequence "" "a" ["1"]
    (buildBundle "" (singleRequest (some "evt_x")))
  have hrun₁ := huncaught.run_of_runUnder hunder₁
  have hrun₂ := huncaught.run_of_runUnder hunder₂
  rw [run_importRecording_eq (parseBundle_singleRequest _)] at hrun₁ hrun₂
  -- what a parent of another recording becomes in the two branches
  have hparents₁ : ((openImported .bySequence "" (settled "a" ["1"] .empty
      (singleRequest (some "evt_x")))).run .empty).1.toOption.map
        (fun r => r.events.map Event.parentEventId) = some [some "evt_x"] := by decide
  have hparents₂ : ((openImported .bySequence "" (settled "a" ["1"] takenStore
      (singleRequest (some "evt_x")))).run takenStore).1.toOption.map
        (fun r => r.events.map Event.parentEventId) = some [none] := by decide
  rw [hrun₁] at hparents₁
  rw [hrun₂] at hparents₂
  have hlinks₁ : r₁.events.map Event.parentEventId = [some "evt_x"] := Option.some.inj hparents₁
  have hlinks₂ : r₂.events.map Event.parentEventId = [none] := Option.some.inj hparents₂
  have hlinks : r₂.events.map Event.parentEventId =
      (r₁.events.map Event.parentEventId).map (Option.map rename) := by
    rw [hequal.events, List.map_map, List.map_map]
    rfl
  rw [hlinks₁, hlinks₂] at hlinks
  cases hlinks

end InfraReplay
