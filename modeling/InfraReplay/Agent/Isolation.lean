import InfraReplay.Agent.Attribution
import InfraReplay.Agent.Landed
import InfraReplay.Capture.Lifecycle

/-!
# Captured SQL reaches its own recording

`CapturedApp` is the application with its agent and the API that its posts arrive at. A post may
arrive whether or not the agent hears of it, its `ingest_events` call takes its steps at any time,
and meanwhile sessions pump the events of their proxies and recordings are finished.

The id of a recording is whatever the header of a request says. The agent formats it into the URL
of the post as it is, and the API reads it from the path that arrives, so an id with a `?`, a `#` or
an escape in it can lead to another recording (`not_isolated_fragment`). `isolated_run` holds after
every run in which no id does: no event is posted twice, each is posted to the recording of the
request it was queued in, a request posts to a recording in the order of the queue, and each stored
result has the query of its statement as its parent.
-/

namespace InfraReplay

open Python

/-- The events of the SQL plugin. -/
def EventType.isSql : EventType → Bool
  | .pgQuery | .pgResult => true
  | .httpRequest | .httpResponse => false

/-! ### The URL of a post -/

/-- `_INGEST_PATH.format(rid=recording_id)`. -/
def ingestPath (recordingId : String) : String := "/api/captures/" ++ recordingId ++ "/events"

/-- The recording id in what follows `/api/captures/`, up to a slash and `events`. -/
def ingestSegment (rest : List Char) : Option String :=
  let id := rest.takeWhile fun c => c ≠ '/'
  let tail := rest.dropWhile fun c => c ≠ '/'
  if id ≠ [] ∧ "/events".toList.isPrefixOf tail ∧ atEnd (tail.drop "/events".toList.length) then
    some (String.ofList id)
  else none

/-- What the route `/api/captures/{recording_id}/events` reads from a path. -/
def ingestId (path : String) : Option String :=
  if "/api/captures/".toList.isPrefixOf path.toList then
    ingestSegment (path.toList.drop "/api/captures/".toList.length)
  else none

/-- The recording to whose ingest endpoint a post for an id goes. `httpPath` is the path at which a
request for a path arrives: httpx makes a URL of it, and the server decodes the path of that;
`none` when the URL is refused. -/
def reaches (httpPath : String → Option String) (recordingId : String) : Option String :=
  (httpPath (ingestPath recordingId)).bind ingestId

/-- A post for the id goes to its recording or to none. -/
def Survives (httpPath : String → Option String) (recordingId : String) : Prop :=
  ∀ reached, reaches httpPath recordingId = some reached → reached = recordingId

/-- The end of a path is its end, or one line break before it. -/
theorem eq_of_atEnd {cs : List Char} (h : atEnd cs = true) : cs = [] ∨ cs = ['\n'] := by
  unfold atEnd at h
  split at h
  case h_1 => exact .inl rfl
  case h_2 => exact .inr rfl
  case h_3 => cases h

/-- The id that is read from a path is the one the path was made of. -/
theorem ingestSegment_append {recordingId reached : String}
    (h : ingestSegment (recordingId.toList ++ "/events".toList) = some reached) :
    reached = recordingId := by
  rw [ingestSegment] at h
  split_ifs at h with hroute
  obtain ⟨-, hprefix, hend⟩ := hroute
  obtain ⟨rest, hrest⟩ := List.isPrefixOf_iff_prefix.mp hprefix
  have hchars := List.takeWhile_append_dropWhile (p := fun c => decide (c ≠ '/'))
    (l := recordingId.toList ++ "/events".toList)
  rw [← hrest] at hchars hend
  rw [List.drop_left' rfl] at hend
  rcases eq_of_atEnd hend with rfl | rfl
  · rw [List.append_nil] at hchars
    rw [← Option.some.inj h, List.append_cancel_right hchars, String.ofList_toList]
  · -- the path ends in `s`, so no final newline was skipped
    have hlast := congrArg List.getLast? hchars
    simp at hlast

/-- An id survives when its path arrives as it is. -/
theorem survives_of_kept {httpPath : String → Option String} {recordingId : String}
    (h : httpPath (ingestPath recordingId) = some (ingestPath recordingId)) :
    Survives httpPath recordingId := by
  intro reached hreached
  rw [reaches, h, Option.bind_some, ingestId] at hreached
  split_ifs at hreached
  rw [ingestPath, String.toList_append, String.toList_append, List.append_assoc,
    List.drop_left' rfl] at hreached
  exact ingestSegment_append hreached

/-- A character that a URL holds as it is. -/
def isPlain (c : Char) : Bool := c.isAlphanum || c = '_' || c = '/'

/-- An id that `new_id` has made survives where paths of plain characters arrive as they are. -/
theorem survives_newId {httpPath : String → Option String}
    (hkeeps : ∀ path : String, (path.toList.all isPlain) = true → httpPath path = some path)
    {stem hex : String} (hstem : (stem.toList.all isPlain) = true)
    (hhex : (hex.toList.all isPlain) = true) : Survives httpPath (newId stem hex) := by
  refine survives_of_kept (hkeeps _ ?_)
  simp only [ingestPath, newId, String.toList_append, List.all_append, hstem, hhex]
  decide

/-! ### The system -/

/-- The application with its agent, and the API it posts to. -/
structure CapturedApp where
  agent : CaptureAgent
  /-- What was put on the queue, in order. No code reads it. -/
  log : List Event := []
  store : Store
  /-- The `ingest_events` calls and the pumps, each with its recording. -/
  appenders : List (String × Appender) := []
  /-- The `finish_recording` calls, each with its recording. -/
  finishers : List (String × Finisher) := []

/-- What happens next. -/
inductive CapturedStep where
  | app (l : AgentStep)
  /-- A post arrives at the ingest endpoint. -/
  | arrive (k : ℕ)
  /-- A session pumps the events of its proxy. -/
  | pump (recordingId : String) (events : List Event)
  | appender (i : ℕ)
  /-- `finish_recording` is called. -/
  | finish (recordingId : String)
  | finisher (i : ℕ)

namespace CapturedApp

/-- One step. -/
def step (httpPath : String → Option String) (encodes : Value → Bool) (order : RowOrder)
    (c : CapturedApp) : CapturedStep → Option CapturedApp
  | .app l =>
    (c.agent.step encodes l).map fun agent =>
      { c with agent := agent, log := c.log ++ c.agent.queues l }
  | .arrive k =>
    c.agent.posts[k]?.bind fun p =>
      (reaches httpPath p.recordingId).map fun recordingId =>
        { c with appenders := c.appenders ++ [(recordingId, .ingest p.events)] }
  | .pump recordingId events =>
    -- a proxy emits requests and responses
    if events.all fun e => !e.eventType.isSql then
      some { c with appenders := c.appenders ++ [(recordingId, .pump events)] }
    else none
  | .appender i =>
    c.appenders[i]?.bind fun task =>
      (task.2.step task.1 c.store).map fun r =>
        { c with store := r.2, appenders := c.appenders.set i (task.1, r.1) }
  | .finish recordingId => some { c with finishers := c.finishers ++ [(recordingId, .start)] }
  | .finisher i =>
    c.finishers[i]?.bind fun task =>
      (task.2.step order task.1 c.store).map fun r =>
        { c with store := r.2, finishers := c.finishers.set i (task.1, r.1) }

/-- A stored SQL event is one of a statement's two events, under the ids of its request; a result
has the query as its parent. -/
def Accounts (agent : CaptureAgent) (e : Event) : Prop :=
  ∃ active query result, agent.Executed active query result ∧
    e.recordingId = active.recordingId ∧ e.correlationId = active.correlationId ∧
      (e.eventType = .pgQuery ∧ e.eventId = query.eventId ∨
        e.eventType = .pgResult ∧ e.eventId = result.eventId ∧
          e.parentEventId = some query.eventId)

/-- Captured SQL reaches only its own recording, and at most once. -/
structure Isolated (httpPath : String → Option String) (c : CapturedApp) : Prop where
  /-- Events are numbered in the order in which they are queued. -/
  numbered : c.log.Pairwise fun e e' => e.sequence < e'.sequence
  /-- No event is posted twice. -/
  once : ((c.agent.posts.flatMap Post.events).map Event.sequence).Nodup
  /-- An event that is posted was queued, by the request of a statement, and goes to its recording
  or to none. -/
  own : ∀ p ∈ c.agent.posts, ∀ e ∈ p.events, e ∈ c.log ∧
    ∃ active, c.agent.Attributed active e ∧ p.recordingId = active.recordingId ∧
      Survives httpPath active.recordingId ∧ e.correlationId = active.correlationId
  /-- What a request posts to a recording is in the order of the queue. -/
  ordered : ∀ i recordingId, (c.agent.postedTo i recordingId).Sublist c.log
  stored : ∀ row ∈ c.store.events.rows, row.event.eventType.isSql = true →
    Accounts c.agent row.event

/-- An agent that has started, and a store without SQL events. -/
structure Starting (c : CapturedApp) : Prop where
  agent : ∃ service, c.agent = CaptureAgent.start service
  log : c.log = []
  store : ∀ row ∈ c.store.events.rows, row.event.eventType.isSql = false
  appenders : c.appenders = []
  finishers : c.finishers = []

/-- The recording id that a request binds survives the URL of a post. -/
def Safe (httpPath : String → Option String) (l : CapturedStep) : Prop :=
  ∀ scopeType headers active, l = .app (.request scopeType headers) →
    captureContext scopeType headers = some active → Survives httpPath active.recordingId

/-! ### Rows that keep their links -/

/-- The row of one event, before and after it was given its place: a result keeps its parent. -/
structure SameEvent (row row' : EventRow) : Prop where
  eventId : row'.eventId = row.eventId
  eventType : row'.event.eventType = row.event.eventType
  recordingId : row'.event.recordingId = row.event.recordingId
  correlationId : row'.event.correlationId = row.event.correlationId
  parent : row.event.eventType = .pgResult → row'.event.parentEventId = row.event.parentEventId

theorem SameEvent.refl (row : EventRow) : SameEvent row row := ⟨rfl, rfl, rfl, rfl, fun _ => rfl⟩

/-- The same event, along two changes of a row. -/
theorem SameEvent.trans {row row' row'' : EventRow} (h : SameEvent row row')
    (h' : SameEvent row' row'') : SameEvent row row'' where
  eventId := h'.eventId.trans h.eventId
  eventType := h'.eventType.trans h.eventType
  recordingId := h'.recordingId.trans h.recordingId
  correlationId := h'.correlationId.trans h.correlationId
  parent htype := (h'.parent (h.eventType.trans htype)).trans (h.parent htype)

/-- The event was read from a row, and a result has the parent of the row. -/
def ReadFrom (s : Store) (e : Event) : Prop :=
  ∃ row ∈ s.events.rows, row.eventId = e.eventId ∧
    (row.event.eventType = .pgResult → e.parentEventId = row.event.parentEventId)

variable {s s' : Store} {e : Event}

/-- No row is lost. -/
def Retains (s s' : Store) : Prop :=
  ∀ row ∈ s.events.rows, ∃ row' ∈ s'.events.rows, SameEvent row row'

/-- What was read from the store was read from any store that retains its rows. -/
theorem ReadFrom.mono (h : ReadFrom s e) (hretains : Retains s s') : ReadFrom s' e := by
  obtain ⟨row, hrow, hid, hparent⟩ := h
  obtain ⟨row', hrow', hsame⟩ := hretains row hrow
  refine ⟨row', hrow', hsame.eventId.trans hid, fun htype => ?_⟩
  rw [hsame.eventType] at htype
  rw [hparent htype, hsame.parent htype]

/-- Placing an event that was read from the store keeps the row it is placed at. -/
theorem sameEvent_placed (h : ReadFrom s e) {row : EventRow} (hrow : row ∈ s.events.rows) :
    SameEvent row (if row.eventId = e.eventId then Store.placed e row else row) := by
  split_ifs with hid
  · obtain ⟨row₀, hrow₀, hid₀, hparent⟩ := h
    -- the row with the id of the event is the one it was read from
    obtain rfl : row₀ = row := s.events.eq_of_key_eq hrow₀ hrow (hid₀.trans hid.symm)
    exact ⟨rfl, rfl, rfl, rfl, hparent⟩
  · exact SameEvent.refl row

/-- Every row is kept, and none is made. -/
structure SameRows (s s' : Store) : Prop where
  retains : Retains s s'
  back : ∀ row' ∈ s'.events.rows, ∃ row ∈ s.events.rows, SameEvent row row'

/-- A store has its own rows. -/
theorem SameRows.refl (s : Store) : SameRows s s :=
  ⟨fun row hrow => ⟨row, hrow, .refl row⟩, fun row hrow => ⟨row, hrow, .refl row⟩⟩

/-- The same rows, along two changes of the store. -/
theorem SameRows.trans {s'' : Store} (h : SameRows s s') (h' : SameRows s' s'') :
    SameRows s s'' where
  retains row hrow := by
    obtain ⟨row', hrow', hsame⟩ := h.retains row hrow
    obtain ⟨row'', hrow'', hsame'⟩ := h'.retains row' hrow'
    exact ⟨row'', hrow'', hsame.trans hsame'⟩
  back row'' hrow'' := by
    obtain ⟨row', hrow', hsame'⟩ := h'.back row'' hrow''
    obtain ⟨row, hrow, hsame⟩ := h.back row' hrow'
    exact ⟨row, hrow, hsame.trans hsame'⟩

/-- Placing events that were read from the store keeps every row, and makes none. -/
theorem sameRows_placeEvents {events : List Event} (h : ∀ e ∈ events, ReadFrom s e) :
    SameRows s (s.placeEvents events) := by
  induction events generalizing s with
  | nil => exact .refl s
  | cons e events ih =>
    let s₁ := s.setEvent e.eventId (Store.placed e) (Store.eventId_placed e)
    have hplaced : ∀ row ∈ s.events.rows,
        SameEvent row (if row.eventId = e.eventId then Store.placed e row else row) :=
      fun row hrow => sameEvent_placed (h e List.mem_cons_self) hrow
    have hset : SameRows s s₁ := by
      constructor
      · exact fun row hrow => ⟨_, List.mem_map_of_mem hrow, hplaced row hrow⟩
      · intro row' hrow'
        obtain ⟨row, hrow, rfl⟩ := List.mem_map.mp hrow'
        exact ⟨row, hrow, hplaced row hrow⟩
    -- what the other events were read from is still there
    exact hset.trans (ih fun e' he' => (h e' (List.mem_cons_of_mem _ he')).mono hset.retains)

/-! ### The ingest door -/

variable {agent agent' : CaptureAgent} {recordingId : String} {active : CaptureContext}

/-- What the agent accounts for, it accounts for later. -/
theorem Accounts.mono (h : Accounts agent e) (hext : agent.Extends agent') :
    Accounts agent' e := by
  obtain ⟨active, query, result, hexecuted, hevent⟩ := h
  exact ⟨active, query, result, hexecuted.mono hext, hevent⟩

/-- The account does not turn on links and numbers. -/
theorem Accounts.sameEvent {row row' : EventRow} (h : Accounts agent row.event)
    (hsame : SameEvent row row') : Accounts agent row'.event := by
  obtain ⟨active, query, result, hexecuted, hrecording, hcorrelation, hkind⟩ := h
  have hid : row'.event.eventId = row.event.eventId := hsame.eventId
  refine ⟨active, query, result, hexecuted, hsame.recordingId.trans hrecording,
    hsame.correlationId.trans hcorrelation, ?_⟩
  rw [hsame.eventType, hid]
  exact hkind.imp_right fun ⟨htype, hresult, hparent⟩ =>
    ⟨htype, hresult, (hsame.parent htype).trans hparent⟩

/-- An event that is posted to the recording of its request is stored as the event it is. -/
theorem accounts_stamped (h : agent.Attributed active e) (hid : active.recordingId = recordingId) :
    Accounts agent (redact { e with recordingId := recordingId }) := by
  have hcorrelation := h.ids.2
  obtain ⟨query, result, hexecuted, heq⟩ := h
  refine ⟨active, query, result, hexecuted, hid.symm, hcorrelation, ?_⟩
  obtain ⟨_, -, -, -, -, plugin, s, rfl, rfl⟩ := hexecuted
  rcases heq with rfl | rfl
  · exact .inl ⟨rfl, rfl⟩
  · exact .inr ⟨rfl, rfl, rfl⟩

/-- What the task is going to store is attributed to its recording, or is no SQL. -/
def Sound (agent : CaptureAgent) (recordingId : String) : Appender → Prop
  | .ingest events =>
    ∀ e ∈ events, ∃ active, agent.Attributed active e ∧ active.recordingId = recordingId
  | .ingestOpen event events =>
    ∀ e ∈ event :: events, ∃ active, agent.Attributed active e ∧ active.recordingId = recordingId
  | .pump events => ∀ e ∈ events, e.eventType.isSql = false
  | .ingested _ => True
  | .raised _ => True

/-- An appender stays sound while the agent goes on. -/
theorem Sound.mono {a : Appender} (h : Sound agent recordingId a) (hext : agent.Extends agent') :
    Sound agent' recordingId a := by
  cases a with
  | ingest events =>
    intro e he
    obtain ⟨active, hactive, hid⟩ := h e he
    exact ⟨active, hactive.mono hext, hid⟩
  | ingestOpen event events =>
    intro e he
    obtain ⟨active, hactive, hid⟩ := h e he
    exact ⟨active, hactive.mono hext, hid⟩
  | pump events => exact h
  | ingested events => trivial
  | raised e => trivial

/-- A task goes on with part of what it had. -/
theorem Sound.step {a a' : Appender} (h : Sound agent recordingId a)
    (hstep : a.step recordingId s = some (a', s')) : Sound agent recordingId a' := by
  cases a with
  | ingest events =>
    simp only [Appender.step] at hstep
    split at hstep
    case h_1 =>
      -- the recording is not there
      cases hstep
      trivial
    case h_2 =>
      cases events with
      | nil =>
        cases hstep
        trivial
      | cons event events =>
        cases hstep
        exact h
  | ingestOpen event events =>
    rw [Appender.step] at hstep
    split at hstep
    · cases hstep
      trivial
    · cases hstep
      trivial
  | pump events =>
    cases events with
    | nil => cases hstep
    | cons event events =>
      rw [Appender.step] at hstep
      split at hstep
      case h_1 =>
        -- the first event is stored
        cases hstep
        exact fun e he => h e (List.mem_cons_of_mem _ he)
      case h_2 =>
        cases hstep
        trivial
  | ingested events => cases hstep
  | raised e => cases hstep

/-- The SQL events among the rows a task adds are accounted for. -/
theorem Sound.accounts_batch {a : Appender} (h : Sound agent recordingId a)
    (he : e ∈ a.batch recordingId) (hsql : e.eventType.isSql = true) :
    Accounts agent (redact e) := by
  cases a with
  | ingestOpen event events =>
    -- the ingest door stamps the recording id
    obtain ⟨e₀, he₀, rfl⟩ := List.mem_map.mp he
    obtain ⟨active, hactive, hid⟩ := h e₀ he₀
    exact accounts_stamped hactive hid
  | pump events =>
    cases events with
    | nil => cases he
    | cons event events =>
      obtain rfl := List.mem_singleton.mp he
      rw [h e List.mem_cons_self] at hsql
      cases hsql
  | ingest events => cases he
  | ingested events => cases he
  | raised e => cases he

/-- A step of a task that adds rows. -/
theorem stored_appender {a a' : Appender} (h : Sound agent recordingId a)
    (hstored : ∀ row ∈ s.events.rows, row.event.eventType.isSql = true → Accounts agent row.event)
    (hstep : a.step recordingId s = some (a', s')) :
    Retains s s' ∧
      ∀ row ∈ s'.events.rows, row.event.eventType.isSql = true → Accounts agent row.event := by
  rcases Appender.step_cases hstep with ⟨rfl, -⟩ | ⟨u, hadd, -⟩
  · exact ⟨fun row hrow => ⟨row, hrow, .refl row⟩, hstored⟩
  · have hrows := (Store.addEvents_eq_ok hadd).1
    constructor
    · intro row hrow
      exact ⟨row, hrows ▸ List.mem_append_left _ hrow, .refl row⟩
    · intro row hrow hsql
      rw [hrows] at hrow
      rcases List.mem_append.mp hrow with hrow | hrow
      · exact hstored row hrow hsql
      · -- a row of the batch is the redaction of one of its stamped events
        obtain ⟨clean, hclean, rfl⟩ := List.mem_map.mp hrow
        obtain ⟨e, he, rfl⟩ := List.mem_map.mp hclean
        exact h.accounts_batch he hsql

/-! ### Finishing -/

/-- The events that `finish_recording` has read. -/
def readEvents : Finisher → List Event
  | .hasEvents _ events => events
  | .hasBlob _ events _ => events
  | _ => []

/-- Correlated events have the parents of the rows they were read from. -/
theorem readFrom_correlate {order : RowOrder}
    (hparent : ∀ row ∈ s.events.rows, row.event.eventType = .pgResult →
      ∃ parent, parent ≠ "" ∧ row.event.parentEventId = some parent)
    (he : e ∈ correlate (s.eventsFor order recordingId)) : ReadFrom s e := by
  obtain ⟨e₀, he₀, hid, hrecorded⟩ := recorded_of_mem_correlate he
  obtain ⟨row, hrow, rfl, -⟩ := Store.mem_eventsFor.mp he₀
  refine ⟨row, hrow, hid, fun htype => ?_⟩
  obtain ⟨parent, hne, hparent⟩ := hparent row hrow htype
  rw [hrecorded parent hne hparent, hparent]

/-- A step of `finish_recording` keeps every row, makes none, and has read what it holds. -/
theorem step_finisher {order : RowOrder} {f f' : Finisher}
    (hparent : ∀ row ∈ s.events.rows, row.event.eventType = .pgResult →
      ∃ parent, parent ≠ "" ∧ row.event.parentEventId = some parent)
    (hread : ∀ e ∈ readEvents f, ReadFrom s e)
    (hstep : f.step order recordingId s = some (f', s')) :
    SameRows s s' ∧ ∀ e ∈ readEvents f', ReadFrom s' e := by
  cases f with
  | start =>
    rw [Finisher.step] at hstep
    split at hstep
    -- neither the missing row nor the row read holds an event yet
    all_goals
      cases hstep
      exact ⟨.refl s, fun _ h => by cases h⟩
  | hasRow row =>
    cases hstep
    exact ⟨.refl s, fun e he => readFrom_correlate hparent he⟩
  | hasEvents row events =>
    rw [Finisher.step] at hstep
    split at hstep
    case h_1 path s₁ hput =>
      -- the snapshot is no part of the rows
      cases hstep
      obtain ⟨-, b, rfl, -⟩ := Store.putBlob_eq_ok hput
      exact ⟨⟨(SameRows.refl s).retains, (SameRows.refl s).back⟩, hread⟩
    case h_2 e s₁ hput =>
      cases hstep
      obtain ⟨-, b, rfl, -⟩ := Store.putBlob_eq_error hput
      exact ⟨⟨(SameRows.refl s).retains, (SameRows.refl s).back⟩, fun _ h => by cases h⟩
  | hasBlob row events locator =>
    cases hstep
    obtain ⟨hretains, hback⟩ := sameRows_placeEvents hread
    exact ⟨⟨hretains, hback⟩, fun _ h => by cases h⟩
  | returned recording => cases hstep
  | raised e => cases hstep

/-! ### Runs -/

/-- What every step keeps. -/
structure Inv (httpPath : String → Option String) (c : CapturedApp) : Prop where
  routed : c.agent.Routed c.log
  ids : ∀ call ∈ c.agent.calls, ∀ active, call.context = some active →
    Survives httpPath active.recordingId
  appenders : ∀ task ∈ c.appenders, Sound c.agent task.1 task.2
  stored : ∀ row ∈ c.store.events.rows, row.event.eventType.isSql = true →
    Accounts c.agent row.event
  finishers : ∀ task ∈ c.finishers, ∀ e ∈ readEvents task.2, ReadFrom c.store e

variable {c c' : CapturedApp} {httpPath : String → Option String} {encodes : Value → Bool}
  {order : RowOrder}

/-- A stored result has a parent. -/
theorem Inv.exists_parent (h : c.Inv httpPath) : ∀ row ∈ c.store.events.rows,
    row.event.eventType = .pgResult →
      ∃ parent, parent ≠ "" ∧ row.event.parentEventId = some parent := by
  intro row hrow htype
  obtain ⟨_, query, _, hexecuted, -, -, hkind⟩ := h.stored row hrow (by rw [htype]; rfl)
  obtain ⟨_, -, -, -, -, plugin, s, rfl, -⟩ := hexecuted
  rcases hkind with ⟨hquery, -⟩ | ⟨-, -, hparent⟩
  · rw [htype] at hquery
    cases hquery
  · exact ⟨_, newId_ne "evt" s.queryHex, hparent⟩

/-- A post that is under way is attributed to its recording, whose id survives the URL. -/
theorem Inv.attributed_post (h : c.Inv httpPath) {p : Post} (hp : p ∈ c.agent.posts)
    (he : e ∈ p.events) :
    e ∈ c.log ∧ ∃ active, c.agent.Attributed active e ∧ active.recordingId = p.recordingId ∧
      Survives httpPath active.recordingId := by
  have hlog : e ∈ c.log := by
    refine h.routed.logged e (List.mem_append_left _ (List.mem_append_left _ ?_))
    exact List.mem_flatMap.mpr ⟨p, hp, he⟩
  obtain ⟨active, hactive⟩ := h.routed.attributed e hlog
  have hid : active.recordingId = p.recordingId :=
    hactive.ids.1.symm.trans (h.routed.posts p hp e he)
  have hsurvives : Survives httpPath active.recordingId := by
    obtain ⟨query, result, ⟨call, hcall, hcontext, -⟩, -⟩ := hactive
    exact h.ids call hcall active hcontext
  exact ⟨hlog, active, hactive, hid, hsurvives⟩

/-- A safe step keeps the invariant. -/
theorem Inv.step {l : CapturedStep} (hsafe : Safe httpPath l) (h : c.Inv httpPath)
    (hstep : c.step httpPath encodes order l = some c') : c'.Inv httpPath := by
  cases l with
  | app l =>
    obtain ⟨agent, hagent, rfl⟩ := Option.map_eq_some_iff.mp hstep
    have hext := CaptureAgent.extends_step hagent
    refine ⟨h.routed.step hagent, fun call' hcall' active hactive => ?_,
      fun task htask => (h.appenders task htask).mono hext,
      fun row hrow hsql => (h.stored row hrow hsql).mono hext, h.finishers⟩
    rcases CaptureAgent.context_of_step hagent hcall' with ⟨call, hcall, hcontext⟩ |
      ⟨scopeType, headers, rfl, hcontext⟩
    · exact h.ids call hcall active (hcontext.symm.trans hactive)
    · exact hsafe scopeType headers active rfl (hcontext.symm.trans hactive)
  | arrive k =>
    obtain ⟨p, hp, hstep⟩ := Option.bind_eq_some_iff.mp hstep
    obtain ⟨recordingId, hreached, rfl⟩ := Option.map_eq_some_iff.mp hstep
    refine ⟨h.routed, h.ids, List.forall_mem_concat h.appenders ?_, h.stored, h.finishers⟩
    intro e he
    obtain ⟨-, active, hactive, hid, hsurvives⟩ := h.attributed_post (List.mem_of_getElem? hp) he
    -- the id the endpoint reads is the one that was bound
    exact ⟨active, hactive, (hsurvives recordingId (hid ▸ hreached)).symm⟩
  | pump recordingId events =>
    rw [CapturedApp.step] at hstep
    split_ifs at hstep with hhttp
    cases hstep
    -- a pump adds HTTP events only
    refine ⟨h.routed, h.ids, List.forall_mem_concat h.appenders ?_, h.stored, h.finishers⟩
    exact fun e he => by simpa using List.all_eq_true.mp hhttp e he
  | appender i =>
    obtain ⟨⟨recordingId, a⟩, htask, hstep⟩ := Option.bind_eq_some_iff.mp hstep
    obtain ⟨⟨a', s'⟩, ha, rfl⟩ := Option.map_eq_some_iff.mp hstep
    have hsound := h.appenders _ (List.mem_of_getElem? htask)
    obtain ⟨hretains, hstored⟩ := stored_appender hsound h.stored ha
    exact ⟨h.routed, h.ids, List.forall_mem_set h.appenders (hsound.step ha), hstored,
      fun task htask e he => (h.finishers task htask e he).mono hretains⟩
  | finish recordingId =>
    cases hstep
    -- the new call has read nothing
    refine ⟨h.routed, h.ids, h.appenders, h.stored, List.forall_mem_concat h.finishers ?_⟩
    exact fun _ he => nomatch he
  | finisher i =>
    obtain ⟨⟨recordingId, f⟩, htask, hstep⟩ := Option.bind_eq_some_iff.mp hstep
    obtain ⟨⟨f', s'⟩, hf, rfl⟩ := Option.map_eq_some_iff.mp hstep
    obtain ⟨⟨hretains, hback⟩, hread⟩ :=
      step_finisher h.exists_parent (h.finishers _ (List.mem_of_getElem? htask)) hf
    refine ⟨h.routed, h.ids, h.appenders, fun row' hrow' hsql => ?_,
      List.forall_mem_set ?_ hread⟩
    · obtain ⟨row, hrow, hsame⟩ := hback row' hrow'
      rw [hsame.eventType] at hsql
      exact (h.stored row hrow hsql).sameEvent hsame
    · exact fun task htask e he => (h.finishers task htask e he).mono hretains

/-- It holds at the start. -/
theorem Starting.inv (h : c.Starting) : c.Inv httpPath := by
  obtain ⟨service, hagent⟩ := h.agent
  constructor
  case routed =>
    rw [hagent, h.log]
    exact CaptureAgent.routed_start service
  case ids =>
    rw [hagent]
    exact fun _ hcall => nomatch hcall
  case appenders =>
    rw [h.appenders]
    exact fun _ htask => nomatch htask
  case stored =>
    intro row hrow hsql
    rw [h.store row hrow] at hsql
    cases hsql
  case finishers =>
    rw [h.finishers]
    exact fun _ htask => nomatch htask

/-- It says that every recording holds its own events only. -/
theorem Inv.isolated (h : c.Inv httpPath) : c.Isolated httpPath := by
  constructor
  case numbered => exact h.routed.numbered
  case once =>
    refine h.routed.once.sublist (List.Sublist.map _ ?_)
    exact (List.sublist_append_left _ _).trans (List.sublist_append_left _ _)
  case own =>
    intro p hp e he
    obtain ⟨hlog, active, hactive, hrecording, hsurvives⟩ := h.attributed_post hp he
    exact ⟨hlog, active, hactive, hrecording.symm, hsurvives, hactive.ids.2⟩
  case ordered =>
    intro i recordingId
    refine List.Sublist.trans ?_ (h.routed.lanes i recordingId)
    exact (List.sublist_append_left _ _).trans (List.sublist_append_left _ _)
  case stored => exact h.stored

/-- The invariant holds after every run in which the ids survive. -/
theorem Inv.of_run {steps : List CapturedStep} (hstart : c.Starting)
    (hsafe : ∀ l ∈ steps, Safe httpPath l)
    (hrun : Machine.run (CapturedApp.step httpPath encodes order) c steps = some c') :
    c'.Inv httpPath :=
  Machine.invariant_mem (fun _ l _ h hl hstep => Inv.step (hsafe l hl) h hstep) hstart.inv hrun

/-- **Captured SQL reaches only its own recording, and at most once**, in every run of the
application and the API in which the ids that requests bind survive the URL of a post. -/
theorem isolated_run {steps : List CapturedStep} (hstart : c.Starting)
    (hsafe : ∀ l ∈ steps, Safe httpPath l)
    (hrun : Machine.run (CapturedApp.step httpPath encodes order) c steps = some c') :
    c'.Isolated httpPath :=
  (Inv.of_run hstart hsafe hrun).isolated

/-- What httpx and the server do to a path of path characters, question marks and hashes. -/
def cutPath (path : String) : Option String :=
  some (String.ofList (path.toList.takeWhile fun c => c ≠ '?' && c ≠ '#'))

/-- An agent that has started, and an open recording. -/
def openApp : CapturedApp where
  agent := .start "demo_shop"
  store := .withRecording { recordingId := "rec_1", kind := .capture, status := .recording }

theorem starting_openApp : openApp.Starting where
  agent := ⟨"demo_shop", rfl⟩
  log := rfl
  store _ h := nomatch h
  appenders := rfl
  finishers := rfl

/-- One request runs a statement, the post of its flush arrives, and the recording is finished. -/
def oneCapture : List CapturedStep :=
  CaptureAgent.oneRequest.map .app ++
    [.arrive 0, .appender 0, .appender 0, .finish "rec_1", .finisher 0, .finisher 0, .finisher 0,
      .finisher 0]

/-- Plain characters are not cut off. -/
theorem cutPath_of_plain {path : String} (h : (path.toList.all isPlain) = true) :
    cutPath path = some path := by
  rw [cutPath, List.takeWhile_eq_self_iff.mpr, String.ofList_toList]
  intro c hc
  have hplain := List.all_eq_true.mp h c hc
  by_contra hcut
  have hend : c = '?' ∨ c = '#' := by simpa [or_iff_not_imp_left] using hcut
  rcases hend with rfl | rfl
  · exact absurd hplain (by decide)
  · exact absurd hplain (by decide)

/-- A made id survives the way through a URL that a fragment would cut. -/
theorem survives_rec_1 : Survives cutPath (newId "rec" "1") :=
  survives_newId (fun _ h => cutPath_of_plain h) (by decide) (by decide)

/-- The one request binds the id of the open recording. -/
theorem safe_oneCapture : ∀ l ∈ oneCapture, Safe cutPath l := by
  intro l hl scopeType headers active hrequest hactive
  subst hrequest
  simp only [oneCapture, CaptureAgent.oneRequest, List.map_cons, List.map_nil, List.cons_append,
    List.nil_append, List.mem_cons, CapturedStep.app.injEq, AgentStep.request.injEq,
    List.not_mem_nil, or_false, reduceCtorEq] at hl
  obtain ⟨rfl, rfl⟩ := hl
  obtain rfl := Option.some.inj hactive
  exact survives_rec_1

/-- Both events of the statement are stored. -/
theorem isolated_oneCapture :
    ∃ c, Machine.run (CapturedApp.step cutPath (fun _ => true) .bySequence) openApp oneCapture =
        some c ∧
      c.store.events.rows.length = 2 ∧ c.Isolated cutPath := by
  have hrun : (Machine.run (CapturedApp.step cutPath (fun _ => true) .bySequence) openApp
      oneCapture).map (fun c => c.store.events.rows.length) = some 2 := rfl
  obtain ⟨c, hc, hlength⟩ := Option.map_eq_some_iff.mp hrun
  exact ⟨c, hc, hlength, isolated_run starting_openApp safe_oneCapture hc⟩

/-- The headers of a request that names its recording `rec_1/events#`. -/
def fragmentHeaders : Headers :=
  [("host", "127.0.0.1:3000"), (recordingHeader, "rec_1/events#"), (correlationHeader, "corr_1")]

/-- The request runs a statement, and the post of its flush arrives. -/
def fragmentRequest : List CapturedStep :=
  [.app (.request "http" fragmentHeaders), .app (.statement 0 CaptureAgent.selectStock),
    .app (.send 0 CaptureAgent.lastMessage), .app (.post 0), .arrive 0, .appender 0, .appender 0]

/-- What stands behind the hash is no part of the path, so the statement is stored in `rec_1`. -/
theorem not_isolated_fragment :
    ¬∀ (c' : CapturedApp),
      Machine.run (CapturedApp.step cutPath (fun _ => true) .bySequence) openApp fragmentRequest =
        some c' → c'.Isolated cutPath := by
  intro h
  obtain ⟨c, hrun⟩ : ∃ c, Machine.run (CapturedApp.step cutPath (fun _ => true) .bySequence)
      openApp fragmentRequest = some c := ⟨_, rfl⟩
  have hrows : (Machine.run (CapturedApp.step cutPath (fun _ => true) .bySequence) openApp
      fragmentRequest).map (fun c => c.store.events.rows.map fun row =>
        (row.event.recordingId, row.event.eventType.isSql)) =
          some [("rec_1", true), ("rec_1", true)] := rfl
  have hcontexts : (Machine.run (CapturedApp.step cutPath (fun _ => true) .bySequence) openApp
      fragmentRequest).map (fun c => c.agent.calls.map Call.context) =
        some [some ⟨"rec_1/events#", "corr_1"⟩] := rfl
  rw [hrun, Option.map_some, Option.some.injEq] at hrows hcontexts
  obtain ⟨row, hrow, hids⟩ := List.mem_map.mp
    (hrows ▸ List.mem_cons_self : ("rec_1", true) ∈ _)
  obtain ⟨hrecording, hsql⟩ := Prod.mk.inj hids
  -- the statement of the row ran in a request that bound another id
  obtain ⟨active, _, _, ⟨call, hcall, hactive, -⟩, hown, -⟩ :=
    (h c hrun).stored row hrow hsql
  have hmem : some active ∈ c.agent.calls.map Call.context :=
    hactive ▸ List.mem_map_of_mem hcall
  rw [hcontexts, List.mem_singleton, Option.some.injEq] at hmem
  rw [hrecording, hmem] at hown
  exact absurd hown (by decide)

end CapturedApp

end InfraReplay
