import InfraReplay.Capture.Lifecycle
import InfraReplay.Common.Channel
import InfraReplay.Common.Pool
import InfraReplay.Plugins.HttpCapture
import InfraReplay.Replay.HttpTarget

/-!
# Stopping a live capture

The handlers of the capture proxy put the events of the requests they serve into a queue, the pump
of the session takes them out and appends them to the recording, and one `stop_session` call waits
for the server, ends the queue with the sentinel, waits for the pump and finishes the recording.

The order of the three is the invariant `LiveSession.Inv`: every event is put in while the server is
up, the sentinel goes in when no handler is left, the pump ends when it has met the sentinel, and
`finish_recording` begins when the pump has ended. So the events it reads are those the proxy has
emitted, each once (`stop_loses_nothing`).
-/

namespace InfraReplay

open Python

/-! ### The proxy -/

/-- What a `ReverseProxy` knows. -/
structure ReverseProxy where
  recordingId : String
  service : String
  maxBody : ℤ
  codec : Codec

/-- A client's request, with what the handler reads while it serves it: its fresh ids, the clock
and the answer of the upstream. -/
structure Exchange where
  request : ClientRequest
  correlationHex : String
  requestHex : String
  responseHex : String
  requestNs : ℤ
  responseNs : ℤ
  /-- `elapsed`. -/
  elapsed : ℤ
  upstream : Except String Response

/-- The correlation id of the client, or a fresh one. -/
def Exchange.correlationId (x : Exchange) : String :=
  (x.request.headers.first correlationHeader).getD (newId "corr" x.correlationHex)

/-- `ReverseProxy._event`; `sequence` is the counter of the proxy. -/
def ReverseProxy.event (proxy : ReverseProxy) (eventType : EventType) (payload : Payload)
    (correlationId : String) (durationNs : ℤ) (parent : Option String) (hex : String)
    (timestampNs : ℤ) (sequence : ℤ) : Event where
  recordingId := proxy.recordingId
  eventId := newId "evt" hex
  parentEventId := parent
  sequence := sequence
  timestampNs := timestampNs
  durationNs := durationNs
  eventType := eventType
  service := proxy.service
  correlationId := correlationId
  payload := payload

/-- `captured` in `_handle`. -/
def ReverseProxy.requestEvent (proxy : ReverseProxy) (x : Exchange) : ℤ → Event :=
  proxy.event .httpRequest (proxyRequestPayload proxy.codec proxy.maxBody x.request)
    x.correlationId 0 none x.requestHex x.requestNs

/-- The event of the response in `_handle`. -/
def ReverseProxy.responseEvent (proxy : ReverseProxy) (x : Exchange) : ℤ → Event :=
  proxy.event .httpResponse (proxyResponsePayload proxy.codec proxy.maxBody x.upstream)
    x.correlationId x.elapsed (some (newId "evt" x.requestHex)) x.responseHex x.responseNs

/-! ### The tasks -/

/-- Where `_handle` stands for a request. -/
inductive Handler where
  /-- The request has not come in. -/
  | outside (x : Exchange)
  /-- The body is awaited. -/
  | reading (x : Exchange)
  /-- `captured` is emitted, as the object `ref`, and the upstream is awaited. -/
  | forwarding (x : Exchange) (ref : ℕ)
  /-- The client has its response. -/
  | handled (x : Exchange)
  /-- What was awaited has raised. -/
  | crashed

/-- Where `_pump` stands. The reference is the event at hand. -/
inductive Pump where
  | waiting
  | took (ref : ℕ)
  /-- In `append_events`, which has read the event. -/
  | appending (ref : ℕ) (event : Event)
  | exited
  | raised (ref : ℕ) (e : Error)

/-- Where `stop_session` stands. -/
inductive Stopper where
  | called
  /-- The session is popped, `should_exit` is set and the server awaited. -/
  | shutting
  /-- The server is down. -/
  | shut
  /-- The sentinel is in, and the pump awaited. -/
  | draining
  /-- In `finish_recording`, or behind it. -/
  | finishing (finisher : Finisher)
  /-- The awaited pump has raised. -/
  | raised (e : Error)

/-- The store, the tasks of one session and what they share. -/
structure LiveSession where
  store : Store
  handlers : List Handler
  /-- `self._sequence` of the proxy. -/
  sequence : ℤ
  /-- The event objects that were emitted. The queue has references to them. -/
  emitted : List Event
  channel : Channel ℕ
  pump : Pump
  stopper : Stopper

/-- Whose turn it is. -/
inductive SessionTurn where
  | handler (i : ℕ)
  /-- What a handler awaits raises. -/
  | crash (i : ℕ)
  | pump
  | stopper

/-- The server has accepted the request and not answered it. -/
def Handler.inFlight : Handler → Bool
  | .reading _ | .forwarding _ _ => true
  | _ => false

/-- The server is up. -/
def Stopper.serving : Stopper → Bool
  | .called | .shutting => true
  | _ => false

namespace LiveSession

/-- `self._emit(self._event(...))`. -/
def emit (c : LiveSession) (event : ℤ → Event) : LiveSession :=
  { c with
    sequence := c.sequence + 1
    emitted := c.emitted ++ [event c.sequence]
    channel := c.channel.put c.emitted.length }

/-- `captured.duration_ns = elapsed`, on the object that may still stand in the queue. -/
def setDuration (c : LiveSession) (ref : ℕ) (elapsed : ℤ) : LiveSession :=
  { c with emitted := c.emitted.modify ref fun e => { e with durationNs := elapsed } }

/-- `_handle`, up to its next await. -/
def serve (proxy : ReverseProxy) (c : LiveSession) : Handler → Option (Handler × LiveSession)
  | .outside x => if c.stopper.serving then some (.reading x, c) else none
  | .reading x => some (.forwarding x c.emitted.length, c.emit (proxy.requestEvent x))
  | .forwarding x ref =>
    some (.handled x, (c.setDuration ref x.elapsed).emit (proxy.responseEvent x))
  | .handled _ | .crashed => none

/-- The next step of `_pump`. -/
def pumpStep (c : LiveSession) : Option LiveSession :=
  match c.pump with
  | .waiting =>
    c.channel.get.map fun r =>
      match r.1 with
      | some ref => { c with channel := r.2, pump := .took ref }
      | none => { c with channel := r.2, pump := .exited }
  | .took ref => c.emitted[ref]?.map fun event => { c with pump := .appending ref event }
  | .appending ref event =>
    match c.store.addEvents (redactedRows [event] []) with
    | .ok ((), s) => some { c with store := s, pump := .waiting }
    | .error e => some { c with pump := .raised ref e }
  | .exited | .raised _ _ => none

/-- The next step of `stop_session`. -/
def stopperStep (order : RowOrder) (recordingId : String) (c : LiveSession) :
    Option LiveSession :=
  match c.stopper with
  | .called => some { c with stopper := .shutting }
  | .shutting =>
    -- the server ends when it has served what it has accepted
    if c.handlers.any Handler.inFlight then none else some { c with stopper := .shut }
  | .shut => some { c with channel := c.channel.close, stopper := .draining }
  | .draining =>
    match c.pump with
    | .exited => some { c with stopper := .finishing .start }
    | .raised _ e => some { c with stopper := .raised e }
    | _ => none
  | .finishing finisher =>
    (finisher.step order recordingId c.store).map fun r =>
      { c with store := r.2, stopper := .finishing r.1 }
  | .raised _ => none

/-- One turn. -/
def step (proxy : ReverseProxy) (order : RowOrder) (c : LiveSession) :
    SessionTurn → Option LiveSession
  | .handler i =>
    c.handlers[i]?.bind fun h =>
      (c.serve proxy h).map fun r => { r.2 with handlers := c.handlers.set i r.1 }
  | .crash i =>
    c.handlers[i]?.bind fun h =>
      if h.inFlight then some { c with handlers := c.handlers.set i .crashed } else none
  | .pump => c.pumpStep
  | .stopper => c.stopperStep order proxy.recordingId

end LiveSession

/-! ### What a recording has -/

/-- Among the events there is one of this id: the event, redacted, whatever its place, its parent
and its duration. -/
def Once (e : Event) (events : List Event) : Prop :=
  ∃ n parent duration, (events.filter fun e' => e'.eventId = e.eventId) =
    [{ redact e with sequence := n, parentEventId := parent, durationNs := duration }]

/-- The events are those that were there before and those that were emitted, each once. -/
structure Collects (before : List EventRow) (emitted events : List Event) : Prop where
  once : ∀ e ∈ emitted, Once e events
  eventIds : (events.map Event.eventId).Perm
    (before.map EventRow.eventId ++ emitted.map Event.eventId)

/-- The recording has lost nothing that was emitted and duplicated nothing, and the request and the
response of every request that was handled are there. -/
structure LiveSession.Complete (proxy : ReverseProxy) (before : List EventRow) (c : LiveSession)
    (events : List Event) : Prop where
  collects : Collects before c.emitted events
  handled : ∀ x, .handled x ∈ c.handlers →
    ∃ n n', Once (proxy.requestEvent x n) events ∧ Once (proxy.responseEvent x n') events

/-- No request has come in, nothing has been emitted, and the session is about to be stopped. -/
structure LiveSession.Starting (c : LiveSession) : Prop where
  handlers : ∀ h ∈ c.handlers, ∃ x, h = .outside x
  emitted : c.emitted = []
  channel : c.channel = .empty
  pump : c.pump = .waiting
  stopper : c.stopper = .called

/-! ### Event objects -/

section Objects

variable {emitted emitted' : List Event} {ref : ℕ} {e event : Event}

/-- The event was read from the object `ref`: it is the object but for its duration. -/
def ReadFrom (emitted : List Event) (ref : ℕ) (event : Event) : Prop :=
  ∃ e duration, emitted[ref]? = some e ∧ event = { e with durationNs := duration }

/-- The objects are still there, and may have another duration. -/
def Grows (emitted emitted' : List Event) : Prop :=
  ∀ (ref : ℕ) (e : Event), emitted[ref]? = some e →
    ∃ duration, emitted'[ref]? = some { e with durationNs := duration }

/-- The event was emitted, at some place and with some duration since. -/
def HasEmitted (emitted : List Event) (e : Event) : Prop :=
  ∃ n duration, { e with sequence := n, durationNs := duration } ∈ emitted

/-- Emitting one more event lets the stream grow. -/
theorem grows_append (emitted : List Event) (e : Event) : Grows emitted (emitted ++ [e]) := by
  intro ref e' h
  refine ⟨e'.durationNs, ?_⟩
  rw [List.getElem?_append_left (List.getElem?_eq_some_iff.mp h).1, h]

/-- So does setting the duration of one that was emitted. -/
theorem grows_modify (emitted : List Event) (ref : ℕ) (elapsed : ℤ) :
    Grows emitted (emitted.modify ref fun e => { e with durationNs := elapsed }) := by
  intro ref' e h
  rw [List.getElem?_modify, h]
  by_cases href : ref = ref'
  · exact ⟨elapsed, by simp [href]⟩
  · exact ⟨e.durationNs, by simp [href]⟩

/-- After that, an event is one from before, up to its duration. -/
theorem exists_of_mem_modify {elapsed : ℤ}
    (h : e ∈ emitted.modify ref fun e => { e with durationNs := elapsed }) :
    ∃ e' ∈ emitted, e.recordingId = e'.recordingId := by
  obtain ⟨i, hi⟩ := List.mem_iff_getElem?.mp h
  rw [List.getElem?_modify] at hi
  obtain ⟨e', he', rfl⟩ := Option.map_eq_some_iff.mp hi
  refine ⟨e', List.mem_of_getElem? he', ?_⟩
  split_ifs <;> rfl

/-- Growing twice is growing. -/
theorem Grows.trans {emitted'' : List Event} (h : Grows emitted emitted')
    (h' : Grows emitted' emitted'') : Grows emitted emitted'' := by
  intro ref e he
  obtain ⟨duration, he'⟩ := h ref e he
  obtain ⟨duration', he''⟩ := h' ref _ he'
  exact ⟨duration', he''⟩

/-- What was read from the stream was read from any longer one. -/
theorem ReadFrom.grows (h : ReadFrom emitted ref event) (hgrows : Grows emitted emitted') :
    ReadFrom emitted' ref event := by
  obtain ⟨e, duration, he, rfl⟩ := h
  obtain ⟨duration', he'⟩ := hgrows ref e he
  exact ⟨_, duration, he', rfl⟩

/-- What was emitted stays emitted. -/
theorem HasEmitted.grows (h : HasEmitted emitted e) (hgrows : Grows emitted emitted') :
    HasEmitted emitted' e := by
  obtain ⟨n, duration, hmem⟩ := h
  obtain ⟨ref, href⟩ := List.mem_iff_getElem?.mp hmem
  obtain ⟨duration', href'⟩ := hgrows ref _ href
  exact ⟨n, duration', List.mem_iff_getElem?.mpr ⟨ref, href'⟩⟩

/-- Whether an event is there once does not depend on its place and its duration. -/
theorem HasEmitted.once {events : List Event} (h : HasEmitted emitted e)
    (honce : ∀ e ∈ emitted, Once e events) : Once e events := by
  obtain ⟨n, duration, hmem⟩ := h
  obtain ⟨n', parent, duration', hfilter⟩ := honce _ hmem
  exact ⟨n', parent, duration', hfilter⟩

/-- What was read of the objects in order, one after the other. -/
theorem getElem_of_readFrom {stored : List Event} {i : ℕ}
    (h : List.Forall₂ (ReadFrom emitted) (List.range emitted.length) stored)
    (hi : i < emitted.length) (hi' : i < stored.length) :
    ∃ duration, stored[i] = { emitted[i] with durationNs := duration } := by
  obtain ⟨e, duration, he, hevent⟩ := h.get (by rwa [List.length_range]) hi'
  simp only [List.get_eq_getElem, List.getElem_range, List.getElem?_eq_getElem hi,
    Option.some.injEq] at he hevent
  exact ⟨duration, by rw [hevent, he]⟩

/-- What `finish_recording` reads when the pump has stored every object once. -/
theorem collects_correlate {s : Store} {recordingId : String} {before : List EventRow}
    {stored : List Event} (order : RowOrder)
    (hrows : s.eventRows recordingId = before ++ redactedRows stored [])
    (hstored : List.Forall₂ (ReadFrom emitted) (List.range emitted.length) stored) :
    Collects before emitted (correlate (s.eventsFor order recordingId)) := by
  have hlength : emitted.length = stored.length := by
    rw [← hstored.length_eq, List.length_range]
  have hids : stored.map Event.eventId = emitted.map Event.eventId := by
    refine List.ext_getElem (by simp [hlength]) fun i hi hi' => ?_
    rw [List.length_map] at hi hi'
    obtain ⟨duration, hevent⟩ := getElem_of_readFrom hstored hi' hi
    rw [List.getElem_map, List.getElem_map, hevent]
  have hperm := map_eventId_correlate_perm (s.eventsFor order recordingId)
  have hnd : ((correlate (s.eventsFor order recordingId)).map Event.eventId).Nodup :=
    hperm.nodup_iff.mpr (Store.nodup_eventsFor order recordingId s)
  refine ⟨fun e he => ?_, hperm.trans ?_⟩
  · -- the object was read, and what was read is one of the rows
    obtain ⟨i, hi, rfl⟩ := List.mem_iff_getElem.mp he
    have hi' : i < stored.length := hlength ▸ hi
    obtain ⟨duration, hevent⟩ := getElem_of_readFrom hstored hi hi'
    have hrow : (⟨redact stored[i], none⟩ : EventRow) ∈ s.eventRows recordingId := by
      rw [hrows]
      exact List.mem_append_right _ (mem_redactedRows [] (List.getElem_mem hi'))
    obtain ⟨hmem, hid⟩ := Store.mem_eventRows.mp hrow
    obtain ⟨n, parent, hcorrelated⟩ :=
      exists_mem_correlate (Store.mem_eventsFor.mpr ⟨_, hmem, rfl, hid⟩)
    have hfilter := Table.filter_key_eq hnd hcorrelated
    rw [hevent] at hfilter
    exact ⟨n, parent, duration, hfilter⟩
  · have hrowIds := (Store.eventsFor_perm order recordingId s).map Event.eventId
    rw [hrows, List.map_map] at hrowIds
    rw [← hids, ← map_eventId_redactedRows stored [], ← List.map_append]
    exact hrowIds

end Objects

/-! ### The invariant -/

/-- The event that `_pump` has at hand. -/
def Pump.refs : Pump → List ℕ
  | .waiting | .exited => []
  | .took ref | .appending ref _ | .raised ref _ => [ref]

/-- `finish_recording` has not read the events. -/
def Stopper.beforeRead : Stopper → Bool
  | .called | .shutting | .shut | .draining | .finishing .start | .finishing (.hasRow _) => true
  | _ => false

/-- The events that `finish_recording` has read. -/
def Stopper.hasRead : Stopper → Option (List Event)
  | .finishing (.hasEvents _ events) | .finishing (.hasBlob _ events _) => some events
  | .finishing (.returned recording) => some recording.events
  | _ => none

/-- What `stop_session` has waited for where it stands. -/
def Stopper.Waited (channel : Channel ℕ) (pump : Pump) : Stopper → Prop
  | .called | .shutting | .shut => channel.Flowing ∧ pump ≠ .exited
  | .draining => channel.Closing ∧ pump ≠ .exited ∨ channel.Drained ∧ pump = .exited
  | .finishing _ => channel.Drained ∧ pump = .exited
  | .raised _ => True

/-- The request and the response of the exchange were emitted. -/
def Answered (proxy : ReverseProxy) (emitted : List Event) (x : Exchange) : Prop :=
  ∃ n n', HasEmitted emitted (proxy.requestEvent x n) ∧
    HasEmitted emitted (proxy.responseEvent x n')

/-- The request that the handler has forwarded was emitted, and so was the response when it has
answered. -/
def Handler.Inv (proxy : ReverseProxy) (emitted : List Event) : Handler → Prop
  | .forwarding x _ => ∃ n, HasEmitted emitted (proxy.requestEvent x n)
  | .handled x => Answered proxy emitted x
  | _ => True

/-- A handler's invariant outlives what the others emit. -/
theorem Handler.Inv.grows {proxy : ReverseProxy} {emitted emitted' : List Event} {h : Handler}
    (hh : h.Inv proxy emitted) (hgrows : Grows emitted emitted') : h.Inv proxy emitted' := by
  cases h with
  | forwarding x ref =>
    obtain ⟨n, hrequest⟩ := hh
    exact ⟨n, hrequest.grows hgrows⟩
  | handled x =>
    obtain ⟨n, n', hrequest, hresponse⟩ := hh
    exact ⟨n, n', hrequest.grows hgrows, hresponse.grows hgrows⟩
  | _ => trivial

/-- While the server is up, nothing has been read, and the queue takes events. -/
theorem Stopper.serving_cases {s : Stopper} (h : s.serving = true) :
    s.hasRead = none ∧ s.beforeRead = true ∧
      ∀ channel pump, s.Waited channel pump ↔ channel.Flowing ∧ pump ≠ .exited := by
  cases s with
  | called => exact ⟨rfl, rfl, fun _ _ => Iff.rfl⟩
  | shutting => exact ⟨rfl, rfl, fun _ _ => Iff.rfl⟩
  | _ => cases h

section Waited

variable {channel channel' : Channel ℕ} {pump pump' : Pump} {stopper : Stopper}

/-- A pump that has not ended may go on. -/
theorem Stopper.Waited.running (h : stopper.Waited channel pump) (hpump : pump ≠ .exited)
    (hpump' : pump' ≠ .exited) : stopper.Waited channel pump' := by
  cases stopper with
  | called => exact ⟨h.1, hpump'⟩
  | shutting => exact ⟨h.1, hpump'⟩
  | shut => exact ⟨h.1, hpump'⟩
  | draining => exact .inl ⟨(h.resolve_right fun h => hpump h.2).1, hpump'⟩
  | finishing finisher => exact absurd h.2 hpump
  | raised e => trivial

/-- The pump takes an event. -/
theorem Stopper.Waited.get_some {ref : ℕ} (h : stopper.Waited channel .waiting)
    (hget : channel.get = some (some ref, channel')) : stopper.Waited channel' (.took ref) := by
  have hflowing : channel.Flowing → channel'.Flowing := by
    intro hflowing
    obtain ⟨-, -, hflowing'⟩ := hflowing.get hget
    exact hflowing'
  cases stopper with
  | called => exact ⟨hflowing h.1, nofun⟩
  | shutting => exact ⟨hflowing h.1, nofun⟩
  | shut => exact ⟨hflowing h.1, nofun⟩
  | draining =>
    obtain ⟨hclosing, -⟩ := h.resolve_right fun h => nomatch h.2
    rcases hclosing.get hget with ⟨-, -, hclosing'⟩ | ⟨hnone, -⟩
    · exact .inl ⟨hclosing', nofun⟩
    · cases hnone
  | finishing finisher => exact nomatch h.2
  | raised e => trivial

/-- The pump meets the sentinel. -/
theorem Stopper.Waited.get_none (h : stopper.Waited channel .waiting)
    (hget : channel.get = some (none, channel')) : stopper.Waited channel' .exited := by
  have hflowing : ¬channel.Flowing := by
    intro hflowing
    obtain ⟨ref, hnone, -⟩ := hflowing.get hget
    cases hnone
  cases stopper with
  | called => exact absurd h.1 hflowing
  | shutting => exact absurd h.1 hflowing
  | shut => exact absurd h.1 hflowing
  | draining =>
    obtain ⟨hclosing, -⟩ := h.resolve_right fun h => nomatch h.2
    rcases hclosing.get hget with ⟨ref, hnone, -⟩ | ⟨-, hdrained⟩
    · cases hnone
    · exact .inr ⟨hdrained, rfl⟩
  | finishing finisher => exact nomatch h.2
  | raised e => trivial

end Waited

namespace LiveSession

section Invariant

variable {proxy : ReverseProxy} {order : RowOrder} {before : List EventRow} {c c' : LiveSession}

/-- The pump has stored what it has taken, in order, except for what it has at hand. -/
def Stored (proxy : ReverseProxy) (before : List EventRow) (c : LiveSession) : Prop :=
  ∃ refs stored, c.channel.received = refs ++ c.pump.refs ∧
    List.Forall₂ (ReadFrom c.emitted) refs stored ∧
      c.store.eventRows proxy.recordingId = before ++ redactedRows stored []

/-- The invariant. -/
structure Inv (proxy : ReverseProxy) (before : List EventRow) (c : LiveSession) : Prop where
  sent : c.channel.sent = List.range c.emitted.length
  owned : ∀ e ∈ c.emitted, e.recordingId = proxy.recordingId
  handlers : ∀ h ∈ c.handlers, Handler.Inv proxy c.emitted h
  /-- A handler is in flight only while the server is up. -/
  quiet : c.stopper.serving = false → ∀ h ∈ c.handlers, h.inFlight = false
  waited : c.stopper.Waited c.channel c.pump
  reading : ∀ ref event, c.pump = .appending ref event → ReadFrom c.emitted ref event
  stored : c.stopper.beforeRead = true → Stored proxy before c
  collected : ∀ events, c.stopper.hasRead = some events → Collects before c.emitted events

/-- What the pump has stored stays accounted for while the stream grows. -/
theorem Stored.grows (h : Stored proxy before c) (hgrows : Grows c.emitted c'.emitted)
    (hreceived : c'.channel.received = c.channel.received) (hpump : c'.pump = c.pump)
    (hstore : c'.store = c.store) : Stored proxy before c' := by
  obtain ⟨refs, stored, htaken, hread, hrows⟩ := h
  exact ⟨refs, stored, by rw [hreceived, hpump, htaken], hread.imp fun _ _ h => h.grows hgrows,
    by rw [hstore, hrows]⟩

/-- A step of the pump that stores nothing: what it has at hand is what it takes. -/
theorem Inv.movePump {channel : Channel ℕ} {pump : Pump} (hc : c.Inv proxy before)
    (hsent : channel.sent = c.channel.sent) (hwaited : c.stopper.Waited channel pump)
    (hreading : ∀ ref event, pump = .appending ref event → ReadFrom c.emitted ref event)
    (htaken : ∀ refs, c.channel.received = refs ++ c.pump.refs →
      channel.received = refs ++ pump.refs) :
    Inv proxy before { c with channel := channel, pump := pump } where
  sent := hsent.trans hc.sent
  owned := hc.owned
  handlers := hc.handlers
  quiet := hc.quiet
  waited := hwaited
  reading := hreading
  stored hbefore := by
    obtain ⟨refs, stored, hrefs, hread, hrows⟩ := hc.stored hbefore
    exact ⟨refs, stored, htaken refs hrefs, hread, hrows⟩
  collected := hc.collected

/-- A handler takes a turn without emitting an event. -/
theorem Inv.setHandler (hc : c.Inv proxy before) (i : ℕ) {h : Handler}
    (hinv : h.Inv proxy c.emitted) (hquiet : c.stopper.serving = false → h.inFlight = false) :
    Inv proxy before { c with handlers := c.handlers.set i h } where
  sent := hc.sent
  owned := hc.owned
  handlers := List.forall_mem_set hc.handlers hinv
  quiet hserving := List.forall_mem_set (hc.quiet hserving) (hquiet hserving)
  waited := hc.waited
  reading := hc.reading
  stored := hc.stored
  collected := hc.collected

/-- A handler takes a turn and emits an event. -/
theorem Inv.emits {emitted : List Event} (hc : c.Inv proxy before)
    (hserving : c.stopper.serving = true) (hgrows : Grows c.emitted emitted)
    {ref : ℕ} (href : ref = c.emitted.length) (hlength : emitted.length = ref + 1)
    (howned : ∀ e ∈ emitted, e.recordingId = proxy.recordingId) (i : ℕ) {h : Handler}
    (hinv : h.Inv proxy emitted) (sequence : ℤ) :
    Inv proxy before { c with
      handlers := c.handlers.set i h, sequence := sequence, emitted := emitted
      channel := c.channel.put ref } := by
  obtain ⟨hread, hbefore, hwaited⟩ := Stopper.serving_cases hserving
  -- the clauses about the stopping task do not apply, since the proxy is still serving
  refine ⟨?_, howned, List.forall_mem_set (fun h' hmem => ?_) hinv, fun hnot => ?_, ?_,
    fun ref event hpump => ?_, fun _ => (hc.stored hbefore).grows hgrows rfl rfl rfl,
    fun events h => ?_⟩
  · rw [Channel.put, hc.sent, hlength, href, List.range_succ]
  · exact (hc.handlers h' hmem).grows hgrows
  · rw [hserving] at hnot
    cases hnot
  · obtain ⟨hflowing, hpump⟩ := (hwaited _ _).mp hc.waited
    exact (hwaited _ _).mpr ⟨hflowing.put _, hpump⟩
  · exact (hc.reading ref event hpump).grows hgrows
  · rw [hread] at h
    cases h

/-- A step of a handler keeps the invariant. -/
theorem Inv.serve {i : ℕ} {h h' : Handler} (hc : c.Inv proxy before)
    (hget : c.handlers[i]? = some h) (hserve : c.serve proxy h = some (h', c')) :
    Inv proxy before { c' with handlers := c.handlers.set i h' } := by
  have hmem : h ∈ c.handlers := List.mem_of_getElem? hget
  -- what is in flight is served by a server that is up
  have hserving : h.inFlight = true → c.stopper.serving = true := by
    intro hflight
    by_contra hnot
    rw [hc.quiet (Bool.eq_false_of_not_eq_true hnot) h hmem] at hflight
    cases hflight
  cases h with
  | outside x =>
    rw [LiveSession.serve] at hserve
    split_ifs at hserve with hup
    cases hserve
    exact hc.setHandler i trivial fun hnot => by
      rw [hup] at hnot
      cases hnot
  | reading x =>
    cases hserve
    refine hc.emits (hserving rfl) (grows_append _ _) rfl (by simp) (fun e he => ?_) i ?_ _
    · rcases List.mem_append.mp he with he | he
      · exact hc.owned e he
      · rw [List.mem_singleton.mp he]
        rfl
    · exact ⟨c.sequence, c.sequence, 0, List.mem_append_right _ (List.mem_singleton_self _)⟩
  | forwarding x ref =>
    cases hserve
    have hgrows := (grows_modify c.emitted ref x.elapsed).trans
      (grows_append _ (proxy.responseEvent x c.sequence))
    refine hc.emits (hserving rfl) hgrows (List.length_modify ..) (by simp) (fun e he => ?_) i ?_ _
    · rcases List.mem_append.mp he with he | he
      · obtain ⟨e', he', hsame⟩ := exists_of_mem_modify he
        rw [hsame]
        exact hc.owned e' he'
      · rw [List.mem_singleton.mp he]
        rfl
    · obtain ⟨n, hrequest⟩ := hc.handlers _ hmem
      exact ⟨n, c.sequence, hrequest.grows hgrows, c.sequence, x.elapsed,
        List.mem_append_right _ (List.mem_singleton_self _)⟩
  | handled x => cases hserve
  | crashed => cases hserve

/-- What a step of the pump does. -/
inductive PumpMoved (c : LiveSession) : LiveSession → Prop where
  | take (ref : ℕ) (channel : Channel ℕ) (hpump : c.pump = .waiting)
      (hget : c.channel.get = some (some ref, channel)) :
      PumpMoved c { c with channel := channel, pump := .took ref }
  | exit (channel : Channel ℕ) (hpump : c.pump = .waiting)
      (hget : c.channel.get = some (none, channel)) :
      PumpMoved c { c with channel := channel, pump := .exited }
  | read (ref : ℕ) (event : Event) (hpump : c.pump = .took ref)
      (hevent : c.emitted[ref]? = some event) :
      PumpMoved c { c with pump := .appending ref event }
  | store (ref : ℕ) (event : Event) (s : Store) (hpump : c.pump = .appending ref event)
      (hadd : c.store.addEvents (redactedRows [event] []) = .ok ((), s)) :
      PumpMoved c { c with store := s, pump := .waiting }
  | fail (ref : ℕ) (event : Event) (error : Error) (hpump : c.pump = .appending ref event)
      (hadd : c.store.addEvents (redactedRows [event] []) = .error error) :
      PumpMoved c { c with pump := .raised ref error }

/-- Everything that a step of the pump can do. -/
theorem pumpMoved_of_step (h : c.pumpStep = some c') : c.PumpMoved c' := by
  rw [LiveSession.pumpStep] at h
  cases hpump : c.pump with
  | waiting =>
    rw [hpump] at h
    obtain ⟨⟨item, channel⟩, hget, rfl⟩ := Option.map_eq_some_iff.mp h
    cases item with
    | some ref => exact .take ref channel hpump hget
    | none => exact .exit channel hpump hget
  | took ref =>
    rw [hpump] at h
    obtain ⟨event, hevent, rfl⟩ := Option.map_eq_some_iff.mp h
    exact .read ref event hpump hevent
  | appending ref event =>
    rw [hpump] at h
    simp only at h
    split at h
    case h_1 s hadd =>
      obtain rfl := Option.some.inj h
      exact .store ref event s hpump hadd
    case h_2 error hadd =>
      -- nothing catches what `append_events` raises, and the task ends
      obtain rfl := Option.some.inj h
      exact .fail ref event error hpump hadd
  | exited =>
    rw [hpump] at h
    cases h
  | raised ref error =>
    rw [hpump] at h
    cases h

/-- The event at hand becomes the last one stored. -/
theorem Inv.storeEvent {ref : ℕ} {event : Event} {s : Store} (hc : c.Inv proxy before)
    (hpump : c.pump = .appending ref event)
    (hadd : c.store.addEvents (redactedRows [event] []) = .ok ((), s)) :
    Inv proxy before { c with store := s, pump := .waiting } := by
  have hwaited := hc.waited
  rw [hpump] at hwaited
  have hreading := hc.reading ref event hpump
  refine { hc with
    waited := hwaited.running (fun h => by cases h) (fun h => by cases h)
    reading := fun _ _ h => by cases h
    stored := fun hbefore => ?_ }
  obtain ⟨refs, stored, htaken, hread, hrows⟩ := hc.stored hbefore
  rw [hpump] at htaken
  -- what was at hand joins what has been stored, so the taken references stay the same
  refine ⟨refs ++ [ref], stored ++ [event], ?_, ?_, ?_⟩
  · rw [htaken]
    exact (List.append_nil _).symm
  · exact List.rel_append hread (.cons hreading .nil)
  · have howned : ∀ e ∈ [event], e.recordingId = proxy.recordingId := by
      intro e he
      rw [List.mem_singleton.mp he]
      obtain ⟨e', duration, he', rfl⟩ := hreading
      exact hc.owned e' (List.mem_of_getElem? he')
    rw [eventRows_addEvents_owned hadd howned, hrows, List.append_assoc]
    simp only [redactedRows, List.map_append]

/-- A step of the pump keeps the invariant. -/
theorem Inv.pumpStep (hc : c.Inv proxy before) (h : c.pumpStep = some c') :
    c'.Inv proxy before := by
  have hwaited := hc.waited
  have hmoved := pumpMoved_of_step h
  cases hmoved with
  | take ref channel hpump hget =>
    rw [hpump] at hwaited
    obtain ⟨-, hsent, hreceived⟩ := Channel.get_eq_some_some hget
    refine hc.movePump hsent (hwaited.get_some hget) (fun _ _ h => by cases h)
      fun refs htaken => ?_
    rw [hpump, Pump.refs, List.append_nil] at htaken
    rw [hreceived, htaken, Pump.refs]
  | exit channel hpump hget =>
    rw [hpump] at hwaited
    obtain ⟨-, hsent, hreceived⟩ := Channel.get_eq_some_none hget
    -- the sentinel is no event, so the pump has nothing at hand
    refine hc.movePump hsent (hwaited.get_none hget) (fun _ _ h => by cases h)
      fun refs htaken => ?_
    rw [hpump] at htaken
    exact hreceived.trans htaken
  | read ref event hpump hevent =>
    rw [hpump] at hwaited
    refine hc.movePump rfl (hwaited.running (fun h => by cases h) (fun h => by cases h))
      (fun ref' event' heq => ?_) fun refs htaken => ?_
    · -- the object is read here, with the duration it has now
      cases heq
      exact ⟨event, event.durationNs, hevent, rfl⟩
    · rwa [hpump] at htaken
  | store ref event s hpump hadd => exact hc.storeEvent hpump hadd
  | fail ref event error hpump hadd =>
    rw [hpump] at hwaited
    refine hc.movePump rfl (hwaited.running (fun h => by cases h) (fun h => by cases h))
      (fun _ _ h => by cases h) fun refs htaken => ?_
    rwa [hpump] at htaken

/-- A step of `finish_recording`: the server is down and the pump has ended, before and after. -/
theorem Inv.setFinisher {f f' : Finisher} {s : Store} (hc : c.Inv proxy before)
    (hstopper : c.stopper = .finishing f)
    (hstored : (Stopper.finishing f').beforeRead = true →
      Stored proxy before { c with store := s, stopper := .finishing f' })
    (hcollected : ∀ events, (Stopper.finishing f').hasRead = some events →
      Collects before c.emitted events) :
    Inv proxy before { c with store := s, stopper := .finishing f' } := by
  have hwaited := hc.waited
  have hquiet := hc.quiet
  rw [hstopper] at hwaited hquiet
  exact { hc with
    quiet := hquiet
    waited := hwaited
    stored := hstored
    collected := hcollected }

/-- What `finish_recording` reads is what was emitted, and it keeps what it has read. -/
theorem Inv.finisherStep {f f' : Finisher} {s : Store} (hc : c.Inv proxy before)
    (hstopper : c.stopper = .finishing f)
    (h : f.step order proxy.recordingId c.store = some (f', s)) :
    Inv proxy before { c with store := s, stopper := .finishing f' } := by
  have hstored := hc.stored
  have hcollected := hc.collected
  rw [hstopper] at hstored hcollected
  cases f with
  | start =>
    rw [Finisher.step] at h
    split at h
    case h_1 =>
      cases h
      exact hc.setFinisher hstopper (fun h => by cases h) fun _ h => by cases h
    case h_2 row hrow =>
      cases h
      exact hc.setFinisher hstopper (fun _ => hstored rfl) fun _ h => by cases h
  | hasRow row =>
    cases h
    refine hc.setFinisher hstopper (fun h => by cases h) fun events h => ?_
    cases h
    -- the pump has ended, so it has stored all that was emitted
    have hwaited := hc.waited
    rw [hstopper] at hwaited
    obtain ⟨⟨-, hdrained⟩, hpump⟩ := hwaited
    obtain ⟨refs, stored, htaken, hread, hrows⟩ := hstored rfl
    rw [hpump, Pump.refs, List.append_nil, hdrained, hc.sent] at htaken
    exact collects_correlate order hrows (htaken ▸ hread)
  | hasEvents row events =>
    rw [Finisher.step] at h
    split at h
    case h_1 path s₁ hput =>
      cases h
      exact hc.setFinisher hstopper (fun h => by cases h) hcollected
    case h_2 e hput =>
      cases h
      exact hc.setFinisher hstopper (fun h => by cases h) fun _ h => by cases h
  | hasBlob row events locator =>
    cases h
    exact hc.setFinisher hstopper (fun h => by cases h) hcollected
  | returned recording => cases h
  | raised e => cases h

/-- What a step of `stop_session` does. -/
inductive StopperMoved (order : RowOrder) (recordingId : String) (c : LiveSession) :
    LiveSession → Prop where
  | call (hstopper : c.stopper = .called) :
      StopperMoved order recordingId c { c with stopper := .shutting }
  | shut (hstopper : c.stopper = .shutting) (hflight : ∀ h ∈ c.handlers, h.inFlight = false) :
      StopperMoved order recordingId c { c with stopper := .shut }
  | close (hstopper : c.stopper = .shut) :
      StopperMoved order recordingId c { c with channel := c.channel.close, stopper := .draining }
  | drain (hstopper : c.stopper = .draining) (hpump : c.pump = .exited) :
      StopperMoved order recordingId c { c with stopper := .finishing .start }
  | fail (ref : ℕ) (error : Error) (hstopper : c.stopper = .draining)
      (hpump : c.pump = .raised ref error) :
      StopperMoved order recordingId c { c with stopper := .raised error }
  | finish (f f' : Finisher) (s : Store) (hstopper : c.stopper = .finishing f)
      (hfinish : f.step order recordingId c.store = some (f', s)) :
      StopperMoved order recordingId c { c with store := s, stopper := .finishing f' }

/-- Everything that a step of the stopping task can do. -/
theorem stopperMoved_of_step {recordingId : String}
    (h : c.stopperStep order recordingId = some c') : c.StopperMoved order recordingId c' := by
  rw [LiveSession.stopperStep] at h
  cases hstopper : c.stopper with
  | called =>
    rw [hstopper] at h
    obtain rfl := Option.some.inj h
    exact .call hstopper
  | shutting =>
    rw [hstopper] at h
    simp only at h
    split_ifs at h with hflight
    obtain rfl := Option.some.inj h
    -- the server ends when no handler is left in flight
    refine .shut hstopper fun handler hmem => ?_
    exact Bool.eq_false_of_not_eq_true fun h => hflight (List.any_eq_true.mpr ⟨handler, hmem, h⟩)
  | shut =>
    rw [hstopper] at h
    obtain rfl := Option.some.inj h
    exact .close hstopper
  | draining =>
    rw [hstopper] at h
    simp only at h
    split at h
    case h_1 hpump =>
      obtain rfl := Option.some.inj h
      exact .drain hstopper hpump
    case h_2 ref error hpump =>
      obtain rfl := Option.some.inj h
      exact .fail ref error hstopper hpump
    case h_3 =>
      -- the pump is still at work
      cases h
  | finishing f =>
    rw [hstopper] at h
    obtain ⟨⟨f', s⟩, hfinish, rfl⟩ := Option.map_eq_some_iff.mp h
    exact .finish f f' s hstopper hfinish
  | raised error =>
    rw [hstopper] at h
    cases h

/-- A step of the stopping task keeps the invariant. -/
theorem Inv.stopperStep (hc : c.Inv proxy before)
    (h : c.stopperStep order proxy.recordingId = some c') : c'.Inv proxy before := by
  have hwaited := hc.waited
  have hquiet := hc.quiet
  have hstored := hc.stored
  have hmoved := stopperMoved_of_step h
  cases hmoved with
  | call hstopper =>
    rw [hstopper] at hwaited hstored
    exact { hc with
      quiet := fun h => by cases h
      waited := hwaited
      stored := fun _ => hstored rfl
      collected := fun _ h => by cases h }
  | shut hstopper hflight =>
    rw [hstopper] at hwaited hstored
    -- `shutdown` has waited for the handlers in flight
    exact { hc with
      quiet := fun _ => hflight
      waited := hwaited
      stored := fun _ => hstored rfl
      collected := fun _ h => by cases h }
  | close hstopper =>
    rw [hstopper] at hwaited hstored hquiet
    -- the sentinel goes in behind everything that was emitted
    refine { hc with
      quiet := fun _ => hquiet rfl
      waited := .inl ⟨hwaited.1.close, hwaited.2⟩
      stored := fun _ => ?_
      collected := fun _ h => by cases h }
    exact (hstored rfl).grows (fun ref e he => ⟨e.durationNs, he⟩) rfl rfl rfl
  | drain hstopper hpump =>
    rw [hstopper] at hwaited hstored hquiet
    -- a pump that has ended has met the sentinel
    exact { hc with
      quiet := fun _ => hquiet rfl
      waited := hwaited.resolve_left fun h => h.2 hpump
      stored := fun _ => hstored rfl
      collected := fun _ h => by cases h }
  | fail ref error hstopper hpump =>
    rw [hstopper] at hquiet
    exact { hc with
      quiet := fun _ => hquiet rfl
      waited := trivial
      stored := fun h => by cases h
      collected := fun _ h => by cases h }
  | finish f f' s hstopper hfinish => exact hc.finisherStep hstopper hfinish

/-- Every turn keeps the invariant. -/
theorem Inv.step {t : SessionTurn} (hc : c.Inv proxy before) (h : c.step proxy order t = some c') :
    c'.Inv proxy before := by
  cases t with
  | handler i =>
    obtain ⟨handler, hget, hnext⟩ := Option.bind_eq_some_iff.mp h
    obtain ⟨⟨handler', c₁⟩, hserve, rfl⟩ := Option.map_eq_some_iff.mp hnext
    exact hc.serve hget hserve
  | crash i =>
    obtain ⟨handler, hget, hcrash⟩ := Option.bind_eq_some_iff.mp h
    split_ifs at hcrash
    cases hcrash
    exact hc.setHandler i trivial fun _ => rfl
  | pump => exact hc.pumpStep h
  | stopper => exact hc.stopperStep h

/-- The invariant holds before the first exchange. -/
theorem Starting.inv (hc : c.Starting) : c.Inv proxy (c.store.eventRows proxy.recordingId) where
  sent := by rw [hc.channel, hc.emitted]; rfl
  owned e he := by
    rw [hc.emitted] at he
    cases he
  handlers h hmem := by
    obtain ⟨x, rfl⟩ := hc.handlers h hmem
    trivial
  quiet _ h hmem := by
    obtain ⟨x, rfl⟩ := hc.handlers h hmem
    rfl
  waited := by
    -- stop has not been called
    rw [hc.stopper, hc.channel, hc.pump]
    exact ⟨Channel.flowing_empty, nofun⟩
  reading ref event h := by
    rw [hc.pump] at h
    cases h
  stored _ := ⟨[], [], by rw [hc.channel, hc.pump]; rfl, .nil, (List.append_nil _).symm⟩
  collected events h := by
    rw [hc.stopper] at h
    cases h

end Invariant

end LiveSession

/-! ### Runs -/

/-- **Stopping loses and duplicates nothing.** Whatever turns the handlers, the pump and
`stop_session` take, the pump takes none once `finish_recording` has begun, and when `stop_session`
returns, its recording has every event that was emitted exactly once. -/
theorem stop_loses_nothing {proxy : ReverseProxy} {order : RowOrder} {c c' : LiveSession}
    {turns : List SessionTurn} (hstart : c.Starting)
    (hrun : Machine.run (LiveSession.step proxy order) c turns = some c') :
    (∀ f, c'.stopper = .finishing f → c'.step proxy order .pump = none) ∧
      ∀ recording, c'.stopper = .finishing (.returned recording) →
        c'.Complete proxy (c.store.eventRows proxy.recordingId) recording.events := by
  have hinv : c'.Inv proxy (c.store.eventRows proxy.recordingId) :=
    Machine.invariant_run (fun _ _ _ hc h => hc.step h) hstart.inv hrun
  refine ⟨fun f hf => ?_, fun recording hreturned => ?_⟩
  · have hwaited := hinv.waited
    rw [hf] at hwaited
    rw [LiveSession.step, LiveSession.pumpStep, hwaited.2]
  · have hcollects := hinv.collected recording.events (by rw [hreturned]; rfl)
    refine ⟨hcollects, fun x hx => ?_⟩
    obtain ⟨n, n', hrequest, hresponse⟩ := hinv.handlers _ hx
    exact ⟨n, n', hrequest.once hcollects.once, hresponse.once hcollects.once⟩

/-- A codec that reads every body as text. -/
def textCodec : Codec where
  loads _ := none
  dumps _ := none
  utf8 _ := ""
  text _ _ := ""

/-- A request whose upstream cannot be reached. -/
def oneExchange : Exchange where
  request := { method := "GET", path := "/" }
  correlationHex := "a"
  requestHex := "b"
  responseHex := "c"
  requestNs := 1
  responseNs := 3
  elapsed := 2
  upstream := .error "ConnectError: "

/-- A session with that request, and with one that comes too late. -/
def oneSession : LiveSession where
  store := .withRecording { recordingId := "rec_1", kind := .capture, status := .recording }
  handlers := [.outside oneExchange, .outside oneExchange]
  sequence := 0
  emitted := []
  channel := .empty
  pump := .waiting
  stopper := .called

theorem starting_oneSession : oneSession.Starting where
  handlers h hmem := ⟨oneExchange, by simpa [oneSession] using hmem⟩
  emitted := rfl
  channel := rfl
  pump := rfl
  stopper := rfl

/-- The session is stopped while the upstream is awaited and the pump has the request. -/
theorem stop_loses_nothing_in_flight :
    ∃ c' recording,
      Machine.run (LiveSession.step ⟨"rec_1", "shop", 64, textCodec⟩ .bySequence) oneSession
        [.handler 0, .handler 0, .pump, .stopper, .handler 0, .pump, .pump, .stopper, .stopper,
          .pump, .pump, .pump, .pump, .stopper, .stopper, .stopper, .stopper, .stopper] = some c' ∧
      c'.stopper = .finishing (.returned recording) ∧ c'.emitted.length = 2 ∧
      c'.Complete ⟨"rec_1", "shop", 64, textCodec⟩ [] recording.events := by
  have hrun : ∃ c' recording,
      Machine.run (LiveSession.step ⟨"rec_1", "shop", 64, textCodec⟩ .bySequence) oneSession
        [.handler 0, .handler 0, .pump, .stopper, .handler 0, .pump, .pump, .stopper, .stopper,
          .pump, .pump, .pump, .pump, .stopper, .stopper, .stopper, .stopper, .stopper] = some c' ∧
      c'.stopper = .finishing (.returned recording) ∧ c'.emitted.length = 2 := by
    exact ⟨_, _, rfl, rfl, rfl⟩
  obtain ⟨c', recording, hrun, hreturned, hlength⟩ := hrun
  exact ⟨c', recording, hrun, hreturned, hlength,
    (stop_loses_nothing starting_oneSession hrun).2 recording hreturned⟩

end InfraReplay
