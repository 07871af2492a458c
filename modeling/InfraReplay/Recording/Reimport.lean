import InfraReplay.Recording.Portable

/-!
# Importing a finished recording

A finished recording whose ids are new to a store is imported as it is (`run_openImported`):
redaction and correlation leave it alone, and the query that reads it back finds the rows just
added and no others. Re-keying keeps a recording finished (`Finished.rekey`), because linking
looks at ids only to copy them.
-/

namespace InfraReplay

open Python

/-! ### Renaming commutes with linking -/

/-- A change to events that linking does not notice: neither the kind, the correlation id, the clock
nor the number of an event changes, and a parent that linking leaves alone it leaves alone. -/
structure KeepsLinks (f : Event → Event) (events : List Event) : Prop where
  sequence : ∀ e n, f { e with sequence := n } = { f e with sequence := n }
  eventType : ∀ e, (f e).eventType = e.eventType
  stamp : ∀ e, ((f e).correlationId, (f e).timestampNs) = (e.correlationId, e.timestampNs)
  parent : ∀ e ∈ events, ∀ root lastQuery : Option Event,
    orElse e.parentEventId (parentFor e root lastQuery) = e.parentEventId →
      orElse (f e).parentEventId (parentFor (f e) (root.map f) (lastQuery.map f)) =
        (f e).parentEventId

/-- What keeps the links of a stream keeps those of its parts. -/
theorem KeepsLinks.mono {f : Event → Event} {events events' : List Event} (h : KeepsLinks f events)
    (hsub : ∀ e ∈ events', e ∈ events) : KeepsLinks f events' :=
  { h with parent := fun e he => h.parent e (hsub e he) }

/-- A change to events that renames ids: neither the kind, the correlation id, the clock nor the
number of an event changes, and a recorded parent stays one. -/
structure Renames (f : Event → Event) (events : List Event) : Prop where
  sequence : ∀ e n, f { e with sequence := n } = { f e with sequence := n }
  eventType : ∀ e, (f e).eventType = e.eventType
  stamp : ∀ e, ((f e).correlationId, (f e).timestampNs) = (e.correlationId, e.timestampNs)
  parent_none : ∀ e ∈ events, e.parentEventId = none → (f e).parentEventId = none
  parent_some : ∀ e ∈ events, ∀ p, e.parentEventId = some p →
    ∃ p', (f e).parentEventId = some p' ∧ p' ≠ ""

/-- A parent is made up for an event or not, whatever the ids are. -/
theorem parentFor_map_eq_none {f : Event → Event} {event : Event} {root lastQuery : Option Event}
    (htype : (f event).eventType = event.eventType) (h : parentFor event root lastQuery = none) :
    parentFor (f event) (root.map f) (lastQuery.map f) = none := by
  unfold parentFor at h ⊢
  rw [htype, Option.isSome_map]
  split_ifs at h ⊢
  · rfl
  · rw [Option.map_eq_none_iff] at h
    rw [h]
    rfl
  · rw [Option.map_eq_none_iff] at h
    rw [h]
    rfl

/-- The parent of an event that linking leaves alone is left alone under other ids. -/
theorem Renames.keepsLinks {f : Event → Event} {events : List Event} (hf : Renames f events) :
    KeepsLinks f events := by
  refine ⟨hf.sequence, hf.eventType, hf.stamp, fun event hmem root lastQuery h => ?_⟩
  cases hparent : event.parentEventId with
  | none =>
    -- no parent was found for it, and none is found now
    have hnone : parentFor event root lastQuery = none := by
      rw [hparent] at h
      simpa [orElse] using h
    rw [hf.parent_none event hmem hparent, parentFor_map_eq_none (hf.eventType event) hnone]
    rfl
  | some p =>
    -- a recorded parent stays one, and is not the empty string
    obtain ⟨p', hp', hne⟩ := hf.parent_some event hmem p hparent
    rw [hp', orElse, if_neg (by simp [hne])]

/-- What linking leaves alone it leaves alone under other ids. -/
theorem linkFrom_map {f : Event → Event} {root lastQuery : Option Event} {group : List Event}
    (hf : KeepsLinks f group) (h : linkFrom root lastQuery group = group) :
    linkFrom (root.map f) (lastQuery.map f) (group.map f) = group.map f := by
  induction group generalizing lastQuery with
  | nil => rfl
  | cons e group ih =>
    rw [linkFrom] at h
    obtain ⟨hhead, htail⟩ := List.cons.inj h
    have hparent : orElse (f e).parentEventId
        (parentFor (f e) (root.map f) (lastQuery.map f)) = (f e).parentEventId :=
      hf.parent e (by simp) root lastQuery (congrArg Event.parentEventId hhead)
    -- the renamed run goes on with the renamed last query
    rw [List.map_cons, linkFrom, hparent, lastQuery_map hf.eventType,
      ih (hf.mono fun e he => List.mem_cons_of_mem _ he) htail]

/-- A relabelling that keeps the links keeps a linked group linked. -/
theorem link_map {f : Event → Event} {group : List Event} (hf : KeepsLinks f group)
    (h : link group = group) : link (group.map f) = group.map f := by
  have hroot : ((group.map f).find? fun e => e.eventType = .httpRequest) =
      (group.find? fun e => e.eventType = .httpRequest).map f := by
    rw [List.find?_map]
    congr 2
    ext e
    simp [hf.eventType e]
  unfold link
  rw [hroot]
  exact linkFrom_map hf h

/-- Numbering goes through a map that leaves the numbers alone. -/
theorem numberFrom_map {f : Event → Event}
    (hf : ∀ e n, f { e with sequence := n } = { f e with sequence := n }) (events : List Event)
    (n : ℤ) : numberFrom n (events.map f) = (numberFrom n events).map f := by
  induction events generalizing n with
  | nil => rfl
  | cons e events ih => rw [List.map_cons, numberFrom, numberFrom, List.map_cons, hf e n, ih]

/-- A finished list is finished after such a change. -/
theorem Finished.map {f : Event → Event} {events : List Event} (h : Finished events)
    (hf : KeepsLinks f events) : Finished (events.map f) where
  numbered := by rw [numberFrom_map hf.sequence, h.numbered]
  blocks := by
    obtain ⟨blocks, hflat, htime, hlink⟩ := h.blocks
    refine ⟨blocks.map (List.map f), ?_, ?_, ?_⟩
    · rw [← List.map_flatten, hflat]
    · -- the blocks keep their order in time, since `f` keeps the stamps
      have hstamps : (blocks.map (List.map f)).map stamps = blocks.map stamps := by
        rw [List.map_map]
        refine List.map_congr_left fun b _ => ?_
        show (b.map f).map _ = b.map _
        rw [List.map_map]
        exact List.map_congr_left fun e _ => hf.stamp e
      rwa [hstamps]
    · intro b hb
      obtain ⟨b₀, hb₀, rfl⟩ := List.mem_map.mp hb
      refine link_map (hf.mono fun e he => ?_) (hlink b₀ hb₀)
      rw [← hflat]
      exact List.mem_flatten_of_mem hb₀ he

/-! ### Importing under new ids -/

/-- What `finish_recording` makes of a recording, as far as an import depends on it. -/
structure Recording.IsFinished (r : Recording) : Prop where
  finished : Finished r.events
  masked : ∀ e ∈ r.events, e.IsMasked
  owned : ∀ e ∈ r.events, e.recordingId = r.recordingId
  nodup : (r.events.map Event.eventId).Nodup
  named : r.recordingId ≠ ""

/-- The store has a recording of this id or an event that belongs to it. -/
def Store.HoldsId (s : Store) (recordingId : String) : Prop :=
  recordingId ∈ s.recordings.rows.map RecordingRow.recordingId ∨
    recordingId ∈ s.events.rows.map fun row => row.event.recordingId

/-- No id of the recording is in the store. -/
structure Store.IsNew (s : Store) (r : Recording) : Prop where
  recording : ¬s.HoldsId r.recordingId
  events : ∀ e ∈ r.events, e.eventId ∉ s.events.rows.map EventRow.eventId

variable {d : Store} {r : Recording} {order : RowOrder} {hex : String}

/-- A recording that has an id is opened under it. -/
theorem chosenId_asNew (h : r.recordingId ≠ "") (hex : String) :
    r.asNew.chosenId hex = r.recordingId := by
  show (orElse (some r.recordingId) _).getD "" = _
  rw [orElse, if_neg (by simp [h])]
  rfl

/-- The recording that is written: the one of the bundle, or a re-keyed one when its id is taken. -/
def settled (recordingHex : String) (eventHexes : List String) (s : Store) (r : Recording) :
    Recording :=
  if (s.recordings.find? r.recordingId).isSome then rekey recordingHex eventHexes r else r

/-- An import keeps the number of events. -/
@[simp]
theorem length_settled (recordingHex : String) (eventHexes : List String) (s : Store)
    (r : Recording) : (settled recordingHex eventHexes s r).events.length = r.events.length := by
  unfold settled
  split_ifs
  · exact List.length_map _
  · rfl

/-- A recording is re-keyed when its id is taken, and left alone otherwise. -/
theorem settled_eq_or (recordingHex : String) (eventHexes : List String) (s : Store)
    (r : Recording) :
    ((s.recordings.find? r.recordingId).isSome = true ∧
      settled recordingHex eventHexes s r = rekey recordingHex eventHexes r) ∨
    r.recordingId ∉ s.recordings.rows.map RecordingRow.recordingId ∧
      settled recordingHex eventHexes s r = r := by
  unfold settled
  split_ifs with h
  · exact .inl ⟨h, rfl⟩
  · exact .inr ⟨Table.find?_eq_none_iff.mp (Option.not_isSome_iff_eq_none.mp h), rfl⟩

/-- Without interruption, an import is the opening of its settled recording. -/
theorem run_importRecording_eq {models : Models} {doc : Dict String Value}
    (hparse : parseBundle models doc = .ok r) (order : RowOrder) (hex recordingHex : String)
    (eventHexes : List String) (d : Store) :
    (importRecording models order hex recordingHex eventHexes doc).run d =
      (openImported order hex (settled recordingHex eventHexes d r)).run d := by
  unfold importRecording
  rw [hparse]
  show (_ >>= _ : Prog Store Error Recording).run d = _
  rw [getStatus, Prog.run_bind_ok (Prog.run_read _ d), Option.isSome_map]
  rfl

/-- Once the rows are in, what is left of an import is to finish. -/
theorem run_openImported_eq {d₁ d₂ : Store} (hrow : d.addRecording (r.asNew.row hex) = .ok ((), d₁))
    (hrows : d₁.addEvents (redactedRows r.events []) = .ok ((), d₂)) (order : RowOrder) :
    (openImported order hex r).run d = (finishRecording order r.recordingId).run d₂ := by
  have hstart : (startRecording r.asNew hex).run d = (.ok (r.asNew.chosenId hex), d₁) := by
    unfold startRecording
    rw [Prog.run_bind_ok (Prog.run_tx_ok hrow)]
    rfl
  have happend : (appendEvents r.recordingId r.events).run d₁ =
      (.ok (r.events.map redact), d₂) := by
    rw [run_appendEvents, hrows]
    -- `append_events` returns at once on no events
    split_ifs with hnil
    · rw [hnil] at hrows ⊢
      rw [redactedRows, List.map_nil, List.map_nil, Store.addEvents_nil] at hrows
      cases hrows
      rfl
    · rfl
  unfold openImported
  rw [Prog.run_bind_ok hstart, Prog.run_bind_ok happend]

/-- Where the ids are free, the rows go in. -/
theorem exists_run_openImported_eq (d : Store) (order : RowOrder)
    (hfree : (r.asNew.row hex).recordingId ∉ d.recordings.rows.map RecordingRow.recordingId)
    (hnd : ((d.events.rows ++ redactedRows r.events []).map EventRow.eventId).Nodup) :
    ∃ d', (openImported order hex r).run d = (finishRecording order r.recordingId).run d' ∧
      d'.recordings.rows = d.recordings.rows ++ [r.asNew.row hex] ∧
      d'.events.rows = d.events.rows ++ redactedRows r.events [] ∧ d'.blobs = d.blobs := by
  obtain ⟨d₁, hrow⟩ : ∃ d₁, d.addRecording (r.asNew.row hex) = .ok ((), d₁) :=
    Store.exists_addRecording hfree
  obtain ⟨hrecordings, hevents, -, hblobs⟩ := Store.addRecording_eq_ok hrow
  obtain ⟨d₂, hrows⟩ : ∃ d₂, d₁.addEvents (redactedRows r.events []) = .ok ((), d₂) :=
    Store.exists_addEvents (by rwa [hevents])
  refine ⟨d₂, run_openImported_eq hrow hrows order, ?_, ?_, ?_⟩
  · rw [(Store.addEvents_eq_ok hrows).2.1, hrecordings]
  · rw [(Store.addEvents_eq_ok hrows).1, hevents]
  · rw [(Store.addEvents_eq_ok hrows).2.2.2, hblobs]

/-- Linking does not look at payloads. -/
theorem keepsLinks_jsonMode (events : List Event) : KeepsLinks Event.jsonMode events where
  sequence _ _ := rfl
  eventType _ := rfl
  stamp _ := rfl
  parent e _ root lastQuery h := by
    have hparent : parentFor e.jsonMode (root.map Event.jsonMode) (lastQuery.map Event.jsonMode) =
        parentFor e root lastQuery := by
      unfold parentFor
      rw [Option.isSome_map, Option.map_map, Option.map_map]
      rfl
    rw [hparent]
    exact h

/-- JSON mode keeps the ids. -/
@[simp]
theorem map_eventId_jsonMode (r : Recording) :
    r.jsonMode.events.map Event.eventId = r.events.map Event.eventId :=
  List.map_map.trans rfl

/-- The ids of a recording are in its dump. -/
theorem Store.IsNew.jsonMode (h : d.IsNew r) : d.IsNew r.jsonMode where
  recording := h.recording
  events e he := by
    obtain ⟨e₀, he₀, rfl⟩ := List.mem_map.mp he
    exact h.events e₀ he₀

/-- What a dump says of a finished recording is finished. -/
theorem Recording.IsFinished.jsonMode (hr : r.IsFinished) : r.jsonMode.IsFinished where
  finished := hr.finished.map (keepsLinks_jsonMode r.events)
  masked e he := by
    obtain ⟨e₀, he₀, rfl⟩ := List.mem_map.mp he
    exact isMasked_jsonMode (hr.masked e₀ he₀)
  owned e he := by
    obtain ⟨e₀, he₀, rfl⟩ := List.mem_map.mp he
    exact hr.owned e₀ he₀
  nodup := by
    rw [map_eventId_jsonMode]
    exact hr.nodup
  named := hr.named

/-- A dumped event of the current version validates back, with null for what JSON has no number
for. -/
theorem parseEvent_dump {models : Models} (hmodels : models.RoundTrip) {e : Event}
    (h : e.schemaVersion = schemaVersion) :
    parseEvent models (.dict e.dump) = .ok e.jsonMode := by
  have hversion : Dict.get? e.dump "schema_version" = some (.int schemaVersion) := by
    rw [← h]
    rfl
  have hupgraded : upgraded (.dict e.dump) = .ok e.dump := by
    simp only [upgraded]
    rw [hversion]
    rfl
  unfold parseEvent
  rw [hupgraded]
  show (models.validateEvent e.dump).mapError _ = _
  rw [hmodels.event]
  rfl

/-- The dump of a stream parses to it, in JSON mode. -/
theorem parseEvents_dump {models : Models} (hmodels : models.RoundTrip) {events : List Event}
    (h : ∀ e ∈ events, e.schemaVersion = schemaVersion) :
    parseEvents models (events.map fun e => .dict e.dump) = .ok (events.map Event.jsonMode) := by
  induction events with
  | nil => rfl
  | cons e events ih =>
    rw [List.map_cons, parseEvents, parseEvent_dump hmodels (h e (by simp)),
      ih fun e he => h e (by simp [he])]
    rfl

/-- **A bundle parses back**, as far as its dumps say what they are of. -/
theorem parseBundle_buildBundle {models : Models} (hmodels : models.RoundTrip)
    (exportedAt : String) (h : ∀ e ∈ r.events, e.schemaVersion = schemaVersion) :
    parseBundle models (buildBundle exportedAt r) = .ok r.jsonMode := by
  have hrecording : parseRecording models (some (.dict r.dump)) (r.events.map Event.jsonMode) =
      .ok r.jsonMode := by
    show (models.validateRecording r.dump (r.events.map Event.jsonMode)).mapError _ = _
    rw [hmodels.recording]
    rfl
  have hbody : parseBody models (buildBundle exportedAt r) = .ok r.jsonMode := by
    show (do
      let events ← parseEvents models (r.events.map fun e => .dict e.dump)
      parseRecording models (some (.dict r.dump)) events : Except Error Recording) = _
    rw [parseEvents_dump hmodels h]
    exact hrecording
  show (parseBody models (buildBundle exportedAt r)).mapError asBundleError = _
  rw [hbody]
  rfl

/-! ### Re-keying -/

/-- The ids `rekey` makes up are new to the store and distinct. -/
structure FreshIds (d : Store) (r : Recording) (recordingHex : String)
    (eventHexes : List String) : Prop where
  recording : ¬d.HoldsId (newId "rec" recordingHex)
  length : eventHexes.length = r.events.length
  nodup : eventHexes.Nodup
  events : ∀ hex ∈ eventHexes, newId "evt" hex ∉ d.events.rows.map EventRow.eventId

/-- Fresh ids do not turn on the payloads. -/
theorem FreshIds.jsonMode {recordingHex : String} {eventHexes : List String}
    (h : FreshIds d r recordingHex eventHexes) : FreshIds d r.jsonMode recordingHex eventHexes :=
  { h with length := h.length.trans (List.length_map _).symm }

/-- The new id of an event. -/
def renameId (events : List Event) (eventHexes : List String) (id : String) : String :=
  ((renamedIds events eventHexes).get? id).getD ""

section Rekey

variable {recordingHex : String} {eventHexes : List String} {events : List Event} {id id' : String}

/-- An id is renamed to the made-up id at its place. -/
theorem get?_renamedIds (hnd : (events.map Event.eventId).Nodup)
    (hlength : eventHexes.length = events.length) {i : ℕ}
    (hid : (events.map Event.eventId)[i]? = some id) :
    ∃ hex, eventHexes[i]? = some hex ∧
      (renamedIds events eventHexes).get? id = some (newId "evt" hex) := by
  have hi : i < eventHexes.length := by
    obtain ⟨hlt, -⟩ := List.getElem?_eq_some_iff.mp hid
    rwa [hlength, ← List.length_map (f := Event.eventId)]
  refine ⟨eventHexes[i], List.getElem?_eq_getElem hi, ?_⟩
  have hkeys : ((events.map Event.eventId).zip (eventHexes.map (newId "evt"))).map Prod.fst =
      events.map Event.eventId := List.map_fst_zip (by simp [hlength])
  -- the ids are distinct, so the dictionary lists the pairs as they are zipped
  have hpairs : renamedIds events eventHexes =
      (events.map Event.eventId).zip (eventHexes.map (newId "evt")) :=
    Dict.ofPairs_eq_self (by rwa [hkeys])
  rw [hpairs, Dict.get?_eq_some_iff (by rwa [Dict.keys, hkeys]),
    List.mem_iff_getElem?]
  refine ⟨i, List.getElem?_zip_eq_some.mpr ⟨hid, ?_⟩⟩
  rw [List.getElem?_map, List.getElem?_eq_getElem hi]
  rfl

/-- Where an id goes. -/
theorem exists_renameId (hnd : (events.map Event.eventId).Nodup)
    (hlength : eventHexes.length = events.length) (hid : id ∈ events.map Event.eventId) :
    ∃ hex ∈ eventHexes, (renamedIds events eventHexes).get? id = some (newId "evt" hex) := by
  obtain ⟨i, hi⟩ := List.mem_iff_getElem?.mp hid
  obtain ⟨hex, hhex, hget⟩ := get?_renamedIds hnd hlength hi
  exact ⟨hex, List.mem_of_getElem? hhex, hget⟩

/-- Different events get different ids. -/
theorem renameId_inj (hnd : (events.map Event.eventId).Nodup)
    (hlength : eventHexes.length = events.length) (hhexes : eventHexes.Nodup)
    (hid : id ∈ events.map Event.eventId) (hid' : id' ∈ events.map Event.eventId)
    (h : renameId events eventHexes id = renameId events eventHexes id') : id = id' := by
  obtain ⟨i, hi⟩ := List.mem_iff_getElem?.mp hid
  obtain ⟨j, hj⟩ := List.mem_iff_getElem?.mp hid'
  obtain ⟨hex, hhex, hget⟩ := get?_renamedIds hnd hlength hi
  obtain ⟨hex', hhex', hget'⟩ := get?_renamedIds hnd hlength hj
  rw [renameId, renameId, hget, hget'] at h
  have heq : hex = hex' := newId_injective "evt" h
  -- equal ids stand at one place of the list of made-up ids
  have hij : i = j := by
    obtain ⟨hlt, hval⟩ := List.getElem?_eq_some_iff.mp hhex
    obtain ⟨hlt', hval'⟩ := List.getElem?_eq_some_iff.mp hhex'
    exact (List.Nodup.getElem_inj_iff hhexes).mp (by rw [hval, hval', heq])
  rw [hij, hj] at hi
  exact (Option.some.inj hi).symm

/-- The parent that linking finds is an event of the group. -/
theorem mem_of_parentFor_eq_some {group : List Event} {e : Event} {root lastQuery : Option Event}
    (hroot : ∀ e ∈ root, e ∈ group) (hlast : ∀ e ∈ lastQuery, e ∈ group) {p : String}
    (h : parentFor e root lastQuery = some p) : p ∈ group.map Event.eventId := by
  unfold parentFor at h
  split_ifs at h
  · obtain ⟨query, hquery, rfl⟩ := Option.map_eq_some_iff.mp h
    exact List.mem_map_of_mem (hlast query hquery)
  · obtain ⟨request, hrequest, rfl⟩ := Option.map_eq_some_iff.mp h
    exact List.mem_map_of_mem (hroot request hrequest)

/-- Parents are absent or name an event of the recording. -/
def ParentsInside (events : List Event) : Prop :=
  ∀ e ∈ events, ∀ p, e.parentEventId = some p → p ∈ events.map Event.eventId

/-- The parents of a recording do not turn on its payloads. -/
theorem ParentsInside.jsonMode (h : ParentsInside r.events) : ParentsInside r.jsonMode.events := by
  intro e he p hp
  obtain ⟨e₀, he₀, rfl⟩ := List.mem_map.mp he
  rw [map_eventId_jsonMode]
  exact h e₀ he₀ p hp

/-- Re-keying with enough distinct ids renames. -/
theorem renames_rekeyEvent (hnd : (events.map Event.eventId).Nodup)
    (hlength : eventHexes.length = events.length) (hparents : ParentsInside events)
    (recordingId : String) :
    Renames (rekeyEvent recordingId (renamedIds events eventHexes)) events where
  sequence _ _ := rfl
  eventType _ := rfl
  stamp _ := rfl
  parent_none e _ h := by
    rw [rekeyEvent, h]
    rfl
  parent_some e he p h := by
    obtain ⟨hex, -, hget⟩ := exists_renameId hnd hlength (hparents e he p h)
    refine ⟨newId "evt" hex, ?_, newId_ne "evt" hex⟩
    rw [rekeyEvent, h]
    exact hget

/-- Re-keyed events have distinct ids. -/
theorem nodup_rekey (hnd : (r.events.map Event.eventId).Nodup)
    (hfresh : FreshIds d r recordingHex eventHexes) :
    ((rekey recordingHex eventHexes r).events.map Event.eventId).Nodup := by
  have hids : (rekey recordingHex eventHexes r).events.map Event.eventId =
      (r.events.map Event.eventId).map (renameId r.events eventHexes) := by
    rw [rekey, List.map_map, List.map_map]
    rfl
  rw [hids]
  exact List.Nodup.map_on (fun _ hid _ hid' h =>
    renameId_inj hnd hfresh.length hfresh.nodup hid hid' h) hnd

/-- **Re-keying keeps a recording finished.** -/
theorem Recording.IsFinished.rekey (hr : r.IsFinished) (hparents : ParentsInside r.events)
    (hfresh : FreshIds d r recordingHex eventHexes) :
    (rekey recordingHex eventHexes r).IsFinished where
  finished := hr.finished.map (renames_rekeyEvent hr.nodup hfresh.length hparents _).keepsLinks
  masked e he := by
    obtain ⟨e₀, he₀, rfl⟩ := List.mem_map.mp he
    exact hr.masked e₀ he₀
  owned e he := by
    obtain ⟨e₀, -, rfl⟩ := List.mem_map.mp he
    rfl
  nodup := nodup_rekey hr.nodup hfresh
  named := newId_ne "rec" recordingHex

/-- The re-keyed recording is new to the store. -/
theorem isNew_rekey (hnd : (r.events.map Event.eventId).Nodup)
    (hfresh : FreshIds d r recordingHex eventHexes) :
    d.IsNew (rekey recordingHex eventHexes r) where
  recording := hfresh.recording
  events e he := by
    obtain ⟨e₀, he₀, rfl⟩ := List.mem_map.mp he
    obtain ⟨hex, hhex, hget⟩ := exists_renameId hnd hfresh.length (List.mem_map_of_mem he₀)
    show (((renamedIds r.events eventHexes).get? e₀.eventId).getD "") ∉ _
    rw [hget]
    exact hfresh.events hex hhex

end Rekey

/-! ### What comes back -/

/-- `r'` is `r` under other ids: `rename` is injective on the ids of `r`, and nothing else of the
events and of the recording changes. -/
structure SameUpTo (rename : String → String) (r r' : Recording) : Prop where
  injective : ∀ id ∈ r.events.map Event.eventId, ∀ id' ∈ r.events.map Event.eventId,
    rename id = rename id' → id = id'
  events : r'.events = r.events.map fun e =>
    { e with
      recordingId := r'.recordingId
      eventId := rename e.eventId
      parentEventId := e.parentEventId.map rename }
  project : r'.project = r.project
  title : r'.title = r.title
  kind : r'.kind = r.kind
  capturePlugin : r'.capturePlugin = r.capturePlugin
  target : r'.target = r.target
  sourceRecordingId : r'.sourceRecordingId = r.sourceRecordingId

/-- A recording that is imported as it is. -/
theorem sameUpTo_self (r : Recording) (hr : r.IsFinished) :
    SameUpTo id r { r with schemaVersion := 1, status := .completed } where
  injective _ _ _ _ h := h
  events := by
    refine ((List.map_congr_left fun e he => ?_).trans (List.map_id' r.events)).symm
    rw [Option.map_id, ← hr.owned e he]
    rfl
  project := rfl
  title := rfl
  kind := rfl
  capturePlugin := rfl
  target := rfl
  sourceRecordingId := rfl

/-- A recording that is imported under made-up ids. -/
theorem sameUpTo_rekey {recordingHex : String} {eventHexes : List String} (hr : r.IsFinished)
    (hparents : ParentsInside r.events) (hfresh : FreshIds d r recordingHex eventHexes) :
    SameUpTo (renameId r.events eventHexes) r
      { rekey recordingHex eventHexes r with schemaVersion := 1, status := .completed } where
  injective _ hid _ hid' h := renameId_inj hr.nodup hfresh.length hfresh.nodup hid hid' h
  events := by
    refine List.map_congr_left fun e he => ?_
    have hparent : e.parentEventId.bind (renamedIds r.events eventHexes).get? =
        e.parentEventId.map (renameId r.events eventHexes) := by
      cases h : e.parentEventId with
      | none => rfl
      | some p =>
        -- the parent is an event of the recording, so it has a made-up id
        obtain ⟨hex, -, hget⟩ := exists_renameId hr.nodup hfresh.length (hparents e he p h)
        rw [Option.bind_some, Option.map_some, renameId, hget]
        rfl
    rw [rekeyEvent, hparent]
    rfl
  project := rfl
  title := rfl
  kind := rfl
  capturePlugin := rfl
  target := rfl
  sourceRecordingId := rfl

/-- The payloads come back as well. -/
theorem SameUpTo.payloads {rename : String → String} {r r' : Recording}
    (h : SameUpTo rename r r') : r'.events.map Event.payload = r.events.map Event.payload := by
  rw [h.events, List.map_map]
  rfl

/-- The recording that an import writes is finished and new to the store, and is the recording up to
a renaming of ids. -/
theorem Recording.IsFinished.settled (hr : r.IsFinished) (hparents : ParentsInside r.events)
    {recordingHex : String} {eventHexes : List String}
    (hdest : (r.recordingId ∈ d.recordings.rows.map RecordingRow.recordingId ∧
        FreshIds d r recordingHex eventHexes) ∨ d.IsNew r) :
    (InfraReplay.settled recordingHex eventHexes d r).IsFinished ∧
      d.IsNew (InfraReplay.settled recordingHex eventHexes d r) ∧
      ∃ rename, SameUpTo rename r { InfraReplay.settled recordingHex eventHexes d r with
        schemaVersion := 1, status := .completed } := by
  rcases hdest with ⟨htaken, hfresh⟩ | hnew
  · -- the id is taken: everything gets a new id
    have hfound : (d.recordings.find? r.recordingId).isSome = true := by
      rw [Option.isSome_iff_ne_none]
      exact fun h => Table.find?_eq_none_iff.mp h htaken
    rw [InfraReplay.settled, if_pos hfound]
    exact ⟨hr.rekey hparents hfresh, isNew_rekey hr.nodup hfresh, _,
      sameUpTo_rekey hr hparents hfresh⟩
  · -- no id is known: nothing is renamed
    have hnone : d.recordings.find? r.recordingId = none :=
      Table.find?_eq_none_iff.mpr fun h => hnew.recording (.inl h)
    rw [InfraReplay.settled, hnone, if_neg (by simp)]
    exact ⟨hr, hnew, id, sameUpTo_self r hr⟩

end InfraReplay
