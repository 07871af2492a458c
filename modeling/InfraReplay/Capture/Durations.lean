import InfraReplay.Capture.Drain

/-!
# The duration of a captured request

`_handle` hands the event of a request to the queue before it knows how long the upstream takes,
and writes the duration into the object afterwards. The pump stores what it reads, so whether the
stored request has its duration depends on which of the two comes first.

* `Objects` says which objects a handler may still write to, and that a response is emitted when
  its request has been written for the last time.
* `LiveSession.Timed` adds what the pump has read: only objects that no handler changes any more,
  as long as every turn of the run is `Calm`.
-/

namespace InfraReplay

open Python

/-- What a row says about how long something took. -/
def EventRow.timing (row : EventRow) : String × EventType × ℤ :=
  (row.eventId, row.event.eventType, row.event.durationNs)

/-- What the row of an event will say about it. -/
def Event.timing (e : Event) : String × EventType × ℤ := (e.eventId, e.eventType, e.durationNs)

/-- Redaction keeps the timing. -/
theorem map_timing_redactedRows (events : List Event) :
    (redactedRows events []).map EventRow.timing = events.map Event.timing := by
  rw [redactedRows, List.map_map, List.map_map]
  rfl

/-! ### Event objects and their handlers -/

/-- The handler does not change the object any more. -/
def Handler.leaves (ref : ℕ) : Handler → Bool
  | .forwarding x ref' => ref' ≠ ref || x.elapsed = 0
  | _ => true

/-- No handler changes the object any more. -/
def Settled (handlers : List Handler) (ref : ℕ) : Prop :=
  ∀ x, .forwarding x ref ∈ handlers → x.elapsed = 0

instance (handlers : List Handler) (ref : ℕ) : Decidable (Settled handlers ref) :=
  decidable_of_iff (∀ h ∈ handlers, h.leaves ref = true) <| by
    constructor
    · intro h x hmem
      simpa [Handler.leaves] using h _ hmem
    · intro h handler hmem
      cases handler with
      | forwarding x ref' =>
        by_cases href : ref' = ref
        · simp [Handler.leaves, h x (href ▸ hmem)]
        · simp [Handler.leaves, href]
      | _ => rfl

/-- What the handlers and the objects have to do with each other. -/
structure Objects (proxy : ReverseProxy) (handlers : List Handler) (emitted : List Event) :
    Prop where
  /-- No two handlers write to one object. -/
  apart : ∀ (i j : ℕ) (x y : Exchange) (ref : ℕ), handlers[i]? = some (.forwarding x ref) →
    handlers[j]? = some (.forwarding y ref) → i = j
  /-- A request that is being forwarded has no duration yet. -/
  request : ∀ x ref, .forwarding x ref ∈ handlers →
    ∃ n, emitted[ref]? = some (proxy.requestEvent x n)
  /-- A response is behind its request, which has got its duration. -/
  response : ∀ (ref' : ℕ) (e : Event), emitted[ref']? = some e → e.eventType = .httpResponse →
    ∃ x n m ref, .handled x ∈ handlers ∧ e = proxy.responseEvent x n ∧ ref < ref' ∧
      emitted[ref]? = some { proxy.requestEvent x m with durationNs := x.elapsed } ∧
      ∀ y, .forwarding y ref ∉ handlers

/-- What was settled has not been changed and is still settled. -/
def KeepsSettled (handlers handlers' : List Handler) (emitted emitted' : List Event) : Prop :=
  ∀ (ref : ℕ) (e : Event), emitted[ref]? = some e → Settled handlers ref →
    emitted'[ref]? = some e ∧ Settled handlers' ref

section Objects

variable {proxy : ReverseProxy} {handlers : List Handler} {emitted : List Event} {i : ℕ}
  {h h' : Handler} {x : Exchange} {ref : ℕ}

/-- After a handler has moved, a handler is the one that moved or another from before. -/
theorem getElem?_set_eq_some {j : ℕ} {k : Handler} (h : (handlers.set i h')[j]? = some k) :
    i = j ∧ k = h' ∨ i ≠ j ∧ handlers[j]? = some k := by
  rw [List.getElem?_set] at h
  split_ifs at h with hij hlt
  · exact .inl ⟨hij, (Option.some.inj h).symm⟩
  · exact .inr ⟨hij, h⟩

/-- A handler moves on, with no object to write to. -/
theorem Objects.move (ho : Objects proxy handlers emitted) (hget : handlers[i]? = some h)
    (hopen : ∀ x, h ≠ .handled x) (hnone : ∀ x ref, h' ≠ .forwarding x ref) :
    Objects proxy (handlers.set i h') emitted := by
  -- whoever waits after the move was waiting before it
  have hback : ∀ x ref, .forwarding x ref ∈ handlers.set i h' → .forwarding x ref ∈ handlers := by
    intro x ref hmem
    rcases List.mem_or_eq_of_mem_set hmem with hmem | heq
    · exact hmem
    · exact absurd heq.symm (hnone x ref)
  refine ⟨fun j k x y ref hj hk => ?_, fun x ref hmem => ho.request x ref (hback x ref hmem),
    fun ref' e he htype => ?_⟩
  · rcases getElem?_set_eq_some hj with ⟨-, heq⟩ | ⟨-, hj⟩
    · exact absurd heq.symm (hnone x ref)
    rcases getElem?_set_eq_some hk with ⟨-, heq⟩ | ⟨-, hk⟩
    · exact absurd heq.symm (hnone y ref)
    exact ho.apart j k x y ref hj hk
  · obtain ⟨x, n, m, ref, hhandled, rfl, hlt, hrequest, hlast⟩ := ho.response ref' e he htype
    have hkept := Pool.mem_set_of_ne hget hhandled (hopen x).symm h'
    exact ⟨x, n, m, ref, hkept, rfl, hlt, hrequest, fun y hmem => hlast y (hback y ref hmem)⟩

/-- A move that leaves no request waiting settles nothing. -/
theorem keepsSettled_move (hnone : ∀ x ref, h' ≠ .forwarding x ref) :
    KeepsSettled handlers (handlers.set i h') emitted emitted := by
  intro ref e he hsettled
  refine ⟨he, fun x hmem => ?_⟩
  rcases List.mem_or_eq_of_mem_set hmem with hmem | heq
  · exact hsettled x hmem
  · exact absurd heq.symm (hnone x ref)

/-- A handler emits its request, as a new object. -/
theorem Objects.emitRequest (ho : Objects proxy handlers emitted)
    (hget : handlers[i]? = some (.reading x)) (n : ℤ) :
    Objects proxy (handlers.set i (.forwarding x emitted.length))
      (emitted ++ [proxy.requestEvent x n]) := by
  -- the requests that are waited for lie before the new one
  have hlength : ∀ y ref, .forwarding y ref ∈ handlers → ref < emitted.length := by
    intro y ref hmem
    obtain ⟨m, hm⟩ := ho.request y ref hmem
    exact (List.getElem?_eq_some_iff.mp hm).1
  refine ⟨fun j k y z ref hj hk => ?_, fun y ref hmem => ?_, fun ref' e he htype => ?_⟩
  · -- the new object is no one else's
    rcases getElem?_set_eq_some hj with ⟨hij, hy⟩ | ⟨-, hj⟩ <;>
      rcases getElem?_set_eq_some hk with ⟨hik, hz⟩ | ⟨-, hk⟩
    · exact hij.symm.trans hik
    · obtain ⟨-, rfl⟩ := Handler.forwarding.inj hy
      exact absurd (hlength z _ (List.mem_of_getElem? hk)) (lt_irrefl _)
    · obtain ⟨-, rfl⟩ := Handler.forwarding.inj hz
      exact absurd (hlength y _ (List.mem_of_getElem? hj)) (lt_irrefl _)
    · exact ho.apart j k y z ref hj hk
  · rcases List.mem_or_eq_of_mem_set hmem with hmem | heq
    · obtain ⟨m, hm⟩ := ho.request y ref hmem
      exact ⟨m, (List.getElem?_append_left (hlength y ref hmem)).trans hm⟩
    · obtain ⟨rfl, rfl⟩ := Handler.forwarding.inj heq
      exact ⟨n, List.getElem?_concat_length ..⟩
  · rw [List.getElem?_append] at he
    split_ifs at he with hlt
    · obtain ⟨y, n', m, ref, hhandled, rfl, hlt', hrequest, hlast⟩ := ho.response ref' e he htype
      have hkept := Pool.mem_set_of_ne hget hhandled nofun (.forwarding x emitted.length)
      refine ⟨y, n', m, ref, hkept, rfl, hlt',
        (List.getElem?_append_left (hlt'.trans hlt)).trans hrequest, fun z hmem => ?_⟩
      rcases List.mem_or_eq_of_mem_set hmem with hmem | heq
      · exact hlast z hmem
      · obtain ⟨-, rfl⟩ := Handler.forwarding.inj heq
        omega
    · -- the new event is no response
      rw [List.getElem?_singleton] at he
      split_ifs at he
      obtain rfl := Option.some.inj he
      cases htype

/-- A request that is emitted waits for its answer. -/
theorem keepsSettled_emitRequest (n : ℤ) :
    KeepsSettled handlers (handlers.set i (.forwarding x emitted.length)) emitted
      (emitted ++ [proxy.requestEvent x n]) := by
  intro ref e he hsettled
  have hlt : ref < emitted.length := (List.getElem?_eq_some_iff.mp he).1
  refine ⟨(List.getElem?_append_left hlt).trans he, fun y hmem => ?_⟩
  rcases List.mem_or_eq_of_mem_set hmem with hmem | heq
  · exact hsettled y hmem
  · obtain ⟨-, rfl⟩ := Handler.forwarding.inj heq
    omega

/-- The objects after `captured.duration_ns = elapsed` and the emission of the response. -/
def answeredObjects (proxy : ReverseProxy) (emitted : List Event) (x : Exchange) (ref : ℕ)
    (n : ℤ) : List Event :=
  (emitted.modify ref fun e => { e with durationNs := x.elapsed }) ++ [proxy.responseEvent x n]

/-- An answer changes no other event. -/
theorem getElem?_answeredObjects {n : ℤ} {ref' : ℕ} (hlt : ref' < emitted.length)
    (hne : ref ≠ ref') : (answeredObjects proxy emitted x ref n)[ref']? = emitted[ref']? := by
  rw [answeredObjects, List.getElem?_append_left (by rwa [List.length_modify]),
    List.getElem?_modify_ne _ _ hne]

/-- It gives its request the elapsed time. -/
theorem getElem?_answeredObjects_self {n : ℤ} {e : Event} (he : emitted[ref]? = some e) :
    (answeredObjects proxy emitted x ref n)[ref]? = some { e with durationNs := x.elapsed } := by
  have hlt : ref < emitted.length := (List.getElem?_eq_some_iff.mp he).1
  rw [answeredObjects, List.getElem?_append_left (by rwa [List.length_modify]),
    List.getElem?_modify_eq, he]
  rfl

/-- A handler writes the duration of its request and emits its response. -/
theorem Objects.answer (ho : Objects proxy handlers emitted)
    (hget : handlers[i]? = some (.forwarding x ref)) (n : ℤ) :
    Objects proxy (handlers.set i (.handled x)) (answeredObjects proxy emitted x ref n) := by
  obtain ⟨m, hm⟩ := ho.request x ref (List.mem_of_getElem? hget)
  have hlt : ref < emitted.length := (List.getElem?_eq_some_iff.mp hm).1
  -- whoever still waits was waiting before, for another request
  have hback : ∀ y ref', .forwarding y ref' ∈ handlers.set i (.handled x) →
      .forwarding y ref' ∈ handlers ∧ ref ≠ ref' := by
    intro y ref' hmem
    obtain ⟨j, hj⟩ := List.mem_iff_getElem?.mp hmem
    rcases getElem?_set_eq_some hj with ⟨-, heq⟩ | ⟨hij, hj⟩
    · cases heq
    · refine ⟨List.mem_of_getElem? hj, ?_⟩
      rintro rfl
      exact hij (ho.apart i j x y ref hget hj)
  refine ⟨fun j k y z ref' hj hk => ?_, fun y ref' hmem => ?_, fun ref' e he htype => ?_⟩
  · rcases getElem?_set_eq_some hj with ⟨-, heq⟩ | ⟨-, hj⟩
    · cases heq
    rcases getElem?_set_eq_some hk with ⟨-, heq⟩ | ⟨-, hk⟩
    · cases heq
    exact ho.apart j k y z ref' hj hk
  · obtain ⟨hmem, hne⟩ := hback y ref' hmem
    obtain ⟨m', hm'⟩ := ho.request y ref' hmem
    exact ⟨m', (getElem?_answeredObjects (List.getElem?_eq_some_iff.mp hm').1 hne).trans hm'⟩
  · by_cases hold : ref' < emitted.length
    · -- a response from before; the object written is a request
      have hne : ref ≠ ref' := by
        rintro rfl
        rw [getElem?_answeredObjects_self hm] at he
        obtain rfl := Option.some.inj he
        cases htype
      rw [getElem?_answeredObjects hold hne] at he
      obtain ⟨y, n', m', ref₀, hhandled, rfl, hlt₀, hrequest, hlast⟩ :=
        ho.response ref' e he htype
      have hne₀ : ref ≠ ref₀ := by
        rintro rfl
        exact hlast x (List.mem_of_getElem? hget)
      exact ⟨y, n', m', ref₀, Pool.mem_set_of_ne hget hhandled nofun (.handled x), rfl, hlt₀,
        (getElem?_answeredObjects (hlt₀.trans hold) hne₀).trans hrequest,
        fun z hmem => hlast z (hback z ref₀ hmem).1⟩
    · -- the response emitted now
      rw [answeredObjects, List.getElem?_append, List.length_modify, if_neg hold,
        List.getElem?_singleton] at he
      split_ifs at he with hlast
      obtain rfl := Option.some.inj he
      refine ⟨x, n, m, ref, List.mem_set (List.getElem?_eq_some_iff.mp hget).1 _, rfl,
        by omega, getElem?_answeredObjects_self hm, fun y hmem => ?_⟩
      exact (hback y ref hmem).2 rfl

/-- An answer keeps what was settled, and settles its request. -/
theorem keepsSettled_answer (ho : Objects proxy handlers emitted)
    (hget : handlers[i]? = some (.forwarding x ref)) (n : ℤ) :
    KeepsSettled handlers (handlers.set i (.handled x)) emitted
      (answeredObjects proxy emitted x ref n) := by
  intro ref' e he hsettled
  refine ⟨?_, fun y hmem => ?_⟩
  · by_cases hne : ref = ref'
    · -- what is written is the duration that is there
      subst hne
      obtain ⟨m, hm⟩ := ho.request x ref (List.mem_of_getElem? hget)
      obtain rfl : proxy.requestEvent x m = e := Option.some.inj (hm.symm.trans he)
      rw [getElem?_answeredObjects_self hm, hsettled x (List.mem_of_getElem? hget)]
      rfl
    · exact (getElem?_answeredObjects (List.getElem?_eq_some_iff.mp he).1 hne).trans he
  · rcases List.mem_or_eq_of_mem_set hmem with hmem | heq
    · exact hsettled y hmem
    · cases heq

end Objects

/-- The event that the pump is about to read. -/
def Pump.toRead : Pump → List ℕ
  | .took ref => [ref]
  | _ => []

namespace LiveSession

variable {proxy : ReverseProxy} {order : RowOrder} {before : List EventRow} {c c' : LiveSession}

/-- Every response stored in the session is the one of a request that has been handled, whose
stored request has the same duration. -/
def DurationsAgree (proxy : ReverseProxy) (before : List EventRow) (c : LiveSession) : Prop :=
  ∀ row ∈ c.store.eventRows proxy.recordingId, row.eventId ∉ before.map EventRow.eventId →
    row.event.eventType = .httpResponse →
      ∃ x, .handled x ∈ c.handlers ∧ row.eventId = newId "evt" x.responseHex ∧
        ∃ row' ∈ c.store.eventRows proxy.recordingId, row'.eventId = newId "evt" x.requestHex ∧
          row'.event.eventType = .httpRequest ∧ row'.event.durationNs = row.event.durationNs

/-- When the pump reads an event to store it, the event is not the request of a handler that is
still to write a duration into it. -/
def Calm (c : LiveSession) : SessionTurn → Prop
  | .pump => ∀ ref ∈ c.pump.toRead, Settled c.handlers ref
  | _ => True

instance (c : LiveSession) : (t : SessionTurn) → Decidable (c.Calm t)
  | .pump => inferInstanceAs (Decidable (∀ ref ∈ c.pump.toRead, Settled c.handlers ref))
  | .handler _ | .crash _ | .stopper => inferInstanceAs (Decidable True)

/-! ### The invariant -/

/-- The pump has stored what it has taken, in order, and nothing of it changes any more. -/
structure StoredSettled (proxy : ReverseProxy) (before : List EventRow) (c : LiveSession)
    (refs : List ℕ) (stored : List Event) : Prop where
  received : c.channel.received = refs ++ c.pump.refs
  read : List.Forall₂ (fun ref e => c.emitted[ref]? = some e ∧ Settled c.handlers ref) refs stored
  rows : (c.store.eventRows proxy.recordingId).map EventRow.timing =
    before.map EventRow.timing ++ stored.map Event.timing

/-- The invariant of a calm run. -/
structure Timed (proxy : ReverseProxy) (before : List EventRow) (c : LiveSession) : Prop where
  conserved : c.channel.Conserved
  objects : Objects proxy c.handlers c.emitted
  reading : ∀ ref event, c.pump = .appending ref event →
    c.emitted[ref]? = some event ∧ Settled c.handlers ref
  stored : ∃ refs stored, StoredSettled proxy before c refs stored

/-- What was stored settled stays so while settled events are kept. -/
theorem StoredSettled.keeps {refs : List ℕ} {stored : List Event}
    (h : StoredSettled proxy before c refs stored)
    (hkeeps : KeepsSettled c.handlers c'.handlers c.emitted c'.emitted)
    (hreceived : c'.channel.received = c.channel.received) (hpump : c'.pump = c.pump)
    (hstore : c'.store = c.store) : StoredSettled proxy before c' refs stored where
  received := by rw [hreceived, hpump, h.received]
  read := h.read.imp fun ref e h => hkeeps ref e h.1 h.2
  rows := by rw [hstore, h.rows]

/-- A turn of a handler keeps the invariant when it keeps the objects in order. -/
theorem Timed.ofHandler (hc : c.Timed proxy before) (hconserved : c'.channel.Conserved)
    (hobjects : Objects proxy c'.handlers c'.emitted)
    (hkeeps : KeepsSettled c.handlers c'.handlers c.emitted c'.emitted)
    (hreceived : c'.channel.received = c.channel.received) (hpump : c'.pump = c.pump)
    (hstore : c'.store = c.store) : c'.Timed proxy before where
  conserved := hconserved
  objects := hobjects
  reading ref event h := by
    obtain ⟨hget, hsettled⟩ := hc.reading ref event (hpump ▸ h)
    exact hkeeps ref event hget hsettled
  stored := by
    obtain ⟨refs, stored, h⟩ := hc.stored
    exact ⟨refs, stored, h.keeps hkeeps hreceived hpump hstore⟩

/-- A step of a handler keeps the invariant. -/
theorem Timed.serve {i : ℕ} {h h' : Handler} (hc : c.Timed proxy before)
    (hget : c.handlers[i]? = some h) (hserve : c.serve proxy h = some (h', c')) :
    Timed proxy before { c' with handlers := c.handlers.set i h' } := by
  cases h with
  | outside x =>
    rw [LiveSession.serve] at hserve
    split_ifs at hserve
    cases hserve
    -- the body is read, and nothing has been emitted
    have hhandled : ∀ x', Handler.outside x ≠ .handled x' := fun _ => by simp
    have hforwarding : ∀ x' ref, Handler.reading x ≠ .forwarding x' ref := fun _ _ => by simp
    exact hc.ofHandler hc.conserved (hc.objects.move hget hhandled hforwarding)
      (keepsSettled_move hforwarding) rfl rfl rfl
  | reading x =>
    cases hserve
    exact hc.ofHandler (hc.conserved.put _) (hc.objects.emitRequest hget c.sequence)
      (keepsSettled_emitRequest c.sequence) rfl rfl rfl
  | forwarding x ref =>
    cases hserve
    exact hc.ofHandler (hc.conserved.put _) (hc.objects.answer hget c.sequence)
      (keepsSettled_answer hc.objects hget c.sequence) rfl rfl rfl
  | handled x => cases hserve
  | crashed => cases hserve

/-- A step of the pump that stores nothing. -/
theorem Timed.movePump {channel : Channel ℕ} {pump : Pump} (hc : c.Timed proxy before)
    (hconserved : channel.Conserved)
    (hreading : ∀ ref event, pump = .appending ref event →
      c.emitted[ref]? = some event ∧ Settled c.handlers ref)
    (htaken : ∀ refs, c.channel.received = refs ++ c.pump.refs →
      channel.received = refs ++ pump.refs) :
    Timed proxy before { c with channel := channel, pump := pump } where
  conserved := hconserved
  objects := hc.objects
  reading := hreading
  stored := by
    obtain ⟨refs, stored, hreceived, hread, hrows⟩ := hc.stored
    exact ⟨refs, stored, htaken refs hreceived, hread, hrows⟩

/-- The event at hand is stored as it was read, and it is settled. -/
theorem Timed.storeEvent {ref : ℕ} {event : Event} {s : Store} (hinv : c.Inv proxy before)
    (hc : c.Timed proxy before) (hpump : c.pump = .appending ref event)
    (hadd : c.store.addEvents (redactedRows [event] []) = .ok ((), s)) :
    Timed proxy before { c with store := s, pump := .waiting } := by
  obtain ⟨hget, hsettled⟩ := hc.reading ref event hpump
  obtain ⟨refs, stored, hreceived, hread, hrows⟩ := hc.stored
  rw [hpump] at hreceived
  refine ⟨hc.conserved, hc.objects, (fun _ _ h => by cases h), refs ++ [ref],
    stored ++ [event], ?_, ?_, ?_⟩
  · exact hreceived.trans (List.append_nil _).symm
  · exact List.rel_append hread (.cons ⟨hget, hsettled⟩ .nil)
  · -- the new row carries the timing of the event that was read
    have howned : ∀ e ∈ [event], e.recordingId = proxy.recordingId := by
      intro e he
      rw [List.mem_singleton.mp he]
      exact hinv.owned event (List.mem_of_getElem? hget)
    show (s.eventRows proxy.recordingId).map EventRow.timing = _
    rw [eventRows_addEvents_owned hadd howned, List.map_append, hrows, map_timing_redactedRows,
      List.map_append, List.append_assoc]

/-- A calm step of the pump keeps it: it stores no event that still waits. -/
theorem Timed.pumpStep (hinv : c.Inv proxy before) (hc : c.Timed proxy before)
    (hcalm : c.Calm .pump) (h : c.pumpStep = some c') : c'.Timed proxy before := by
  have hmoved := pumpMoved_of_step h
  cases hmoved with
  | take ref channel hpump hget =>
    obtain ⟨-, -, hreceived⟩ := Channel.get_eq_some_some hget
    refine hc.movePump (hc.conserved.get hget) (fun _ _ h => by cases h) fun refs htaken => ?_
    rw [hpump, Pump.refs, List.append_nil] at htaken
    rw [hreceived, htaken, Pump.refs]
  | exit channel hpump hget =>
    obtain ⟨-, -, hreceived⟩ := Channel.get_eq_some_none hget
    refine hc.movePump (hc.conserved.get hget) (fun _ _ h => by cases h) fun refs htaken => ?_
    rw [hpump] at htaken
    exact hreceived.trans htaken
  | read ref event hpump hevent =>
    refine hc.movePump hc.conserved (fun ref' event' heq => ?_) fun refs htaken => ?_
    · -- the object that is read is settled, as the turn is calm
      cases heq
      apply And.intro hevent
      apply hcalm ref
      rw [hpump]
      exact List.mem_singleton_self ref
    · rwa [hpump] at htaken
  | store ref event s hpump hadd => exact hc.storeEvent hinv hpump hadd
  | fail ref event error hpump hadd =>
    refine hc.movePump hc.conserved (fun _ _ h => by cases h) fun refs htaken => ?_
    rwa [hpump] at htaken

/-- What is stored and when does not change any duration. -/
theorem Timed.setStore (hc : c.Timed proxy before) {s : Store} {stopper : Stopper}
    (hrows : (s.eventRows proxy.recordingId).map EventRow.timing =
      (c.store.eventRows proxy.recordingId).map EventRow.timing) :
    Timed proxy before { c with store := s, stopper := stopper } where
  conserved := hc.conserved
  objects := hc.objects
  reading := hc.reading
  stored := by
    obtain ⟨refs, stored, hreceived, hread, hrows'⟩ := hc.stored
    exact ⟨refs, stored, hreceived, hread, hrows.trans hrows'⟩

/-- `finish_recording` rewrites the place and the parent of a row, and nothing else. -/
theorem timing_finisherStep {f f' : Finisher} {s s' : Store} {recordingId : String}
    (h : f.step order recordingId s = some (f', s')) :
    (s'.eventRows recordingId).map EventRow.timing =
      (s.eventRows recordingId).map EventRow.timing := by
  cases f with
  | start =>
    rw [Finisher.step] at h
    split at h
    · cases h
      rfl
    · cases h
      rfl
  | hasRow row =>
    cases h
    rfl
  | hasEvents row events =>
    rw [Finisher.step] at h
    split at h
    case h_1 path s₁ hput =>
      -- the snapshot is a blob, and the rows are left alone
      obtain ⟨rfl, rfl⟩ := Prod.mk.inj (Option.some.inj h)
      obtain ⟨-, b, rfl, -⟩ := Store.putBlob_eq_ok hput
      rfl
    case h_2 e s₁ hput =>
      obtain ⟨rfl, rfl⟩ := Prod.mk.inj (Option.some.inj h)
      obtain ⟨-, b, rfl, -⟩ := Store.putBlob_eq_error hput
      rfl
  | hasBlob row events locator =>
    cases h
    exact Store.map_eventRows_complete (fun _ _ => rfl) recordingId recordingId events locator s
  | returned recording => cases h
  | raised e => cases h

/-- A step of the stopping task keeps it. -/
theorem Timed.stopperStep (hc : c.Timed proxy before)
    (h : c.stopperStep order proxy.recordingId = some c') : c'.Timed proxy before := by
  have hmoved := stopperMoved_of_step h
  cases hmoved with
  | call hstopper => exact hc.setStore rfl
  | shut hstopper hflight => exact hc.setStore rfl
  | close hstopper =>
    exact hc.ofHandler hc.conserved.close hc.objects (fun _ _ he hs => ⟨he, hs⟩) rfl rfl rfl
  | drain hstopper hpump => exact hc.setStore rfl
  | fail ref error hstopper hpump => exact hc.setStore rfl
  | finish f f' s hstopper hfinish => exact hc.setStore (timing_finisherStep hfinish)

/-- Every calm turn keeps the invariant. -/
theorem Timed.step {t : SessionTurn} (hinv : c.Inv proxy before) (hc : c.Timed proxy before)
    (hcalm : c.Calm t) (h : c.step proxy order t = some c') : c'.Timed proxy before := by
  cases t with
  | handler i =>
    obtain ⟨handler, hget, hnext⟩ := Option.bind_eq_some_iff.mp h
    obtain ⟨⟨handler', c₁⟩, hserve, rfl⟩ := Option.map_eq_some_iff.mp hnext
    exact hc.serve hget hserve
  | crash i =>
    obtain ⟨handler, hget, hcrash⟩ := Option.bind_eq_some_iff.mp h
    split_ifs at hcrash with hflight
    cases hcrash
    refine hc.ofHandler hc.conserved (hc.objects.move hget ?_ nofun) (keepsSettled_move nofun)
      rfl rfl rfl
    rintro x rfl
    cases hflight
  | pump => exact hc.pumpStep hinv hcalm h
  | stopper => exact hc.stopperStep h

/-- It holds before the first exchange. -/
theorem Starting.timed (hc : c.Starting) : c.Timed proxy (c.store.eventRows proxy.recordingId) where
  conserved := by
    rw [hc.channel]
    exact Channel.conserved_empty
  objects := by
    have hnone : ∀ x ref, .forwarding x ref ∉ c.handlers := by
      intro x ref hmem
      obtain ⟨y, hy⟩ := hc.handlers _ hmem
      cases hy
    refine ⟨fun i j x y ref hi => ?_, fun x ref hmem => absurd hmem (hnone x ref), ?_⟩
    · exact absurd (List.mem_of_getElem? hi) (hnone x ref)
    · rw [hc.emitted]
      simp
  reading ref event h := by
    rw [hc.pump] at h
    cases h
  stored := ⟨[], [], by rw [hc.channel, hc.pump]; rfl, .nil, (List.append_nil _).symm⟩

/-- The events are taken in the order in which they were emitted, so those stored are the first
objects, as they are now. -/
theorem StoredSettled.getElem?_emitted {refs : List ℕ} {stored : List Event}
    (h : StoredSettled proxy before c refs stored) (hinv : c.Inv proxy before)
    (hconserved : c.channel.Conserved) (i : ℕ) (hi : i < stored.length) :
    c.emitted[i]? = some stored[i] := by
  have hrefs : refs = List.range refs.length := by
    rw [Channel.Conserved, hinv.sent, h.received, List.append_assoc] at hconserved
    have hle : refs.length ≤ c.emitted.length := by
      have hlength := congrArg List.length hconserved
      rw [List.length_range, List.length_append] at hlength
      omega
    have htake := congrArg (List.take refs.length) hconserved
    rw [List.take_left, List.take_range, Nat.min_eq_left hle] at htake
    exact htake.symm
  have hi' : i < refs.length := h.read.length_eq ▸ hi
  have href : refs[i] = i := (List.getElem_of_eq hrefs hi').trans (List.getElem_range _)
  obtain ⟨hget, -⟩ := h.read.get hi' hi
  rw [List.get_eq_getElem, href] at hget
  exact hget

/-- In such a state the durations agree: the pump takes requests before their responses. -/
theorem Timed.durationsAgree (hinv : c.Inv proxy before) (hc : c.Timed proxy before) :
    c.DurationsAgree proxy before := by
  obtain ⟨refs, stored, hstored⟩ := hc.stored
  have hget := hstored.getElem?_emitted hinv hc.conserved
  have hrows := hstored.rows
  intro row hrow hnew htype
  have hmem : row.timing ∈ before.map EventRow.timing ++ stored.map Event.timing :=
    hrows ▸ List.mem_map_of_mem hrow
  rcases List.mem_append.mp hmem with hmem | hmem
  · obtain ⟨row', hrow', heq⟩ := List.mem_map.mp hmem
    exact absurd (List.mem_map.mpr ⟨row', hrow', (Prod.mk.inj heq).1⟩) hnew
  · obtain ⟨e, he, heq⟩ := List.mem_map.mp hmem
    obtain ⟨i, hi, rfl⟩ := List.mem_iff_getElem.mp he
    obtain ⟨hid, hrest⟩ := Prod.mk.inj heq
    obtain ⟨hetype, hduration⟩ := Prod.mk.inj hrest
    obtain ⟨x, n, m, ref, hhandled, hresponse, hlt, hrequest, -⟩ :=
      hc.objects.response i _ (hget i hi) (hetype.trans htype)
    -- the request came before, so it has been stored, with the duration it had by then
    have hlt' : ref < stored.length := hlt.trans hi
    have htimed : stored[ref].timing ∈
        (c.store.eventRows proxy.recordingId).map EventRow.timing := by
      rw [hrows]
      exact List.mem_append_right _ (List.mem_map_of_mem (List.getElem_mem hlt'))
    obtain ⟨row', hrow', heq'⟩ := List.mem_map.mp htimed
    have hsame : stored[ref] = { proxy.requestEvent x m with durationNs := x.elapsed } :=
      Option.some.inj ((hget ref hlt').symm.trans hrequest)
    rw [hsame] at heq'
    obtain ⟨hid', hrest'⟩ := Prod.mk.inj heq'
    obtain ⟨hetype', hduration'⟩ := Prod.mk.inj hrest'
    rw [hresponse] at hid hduration
    exact ⟨x, hhandled, hid.symm, row', hrow', hid', hetype', hduration'.trans hduration⟩

/-- **The stored request has its real duration in a calm run.** When the pump never reads the event
of a request that is still being forwarded, then for every number of requests and in every order
of the turns, every stored response has a stored request of the same duration. -/
theorem durationsAgree_of_calm {turns : List SessionTurn} (hstart : c.Starting)
    (hcalm : Machine.Along (LiveSession.step proxy order) Calm c turns)
    (hrun : Machine.run (LiveSession.step proxy order) c turns = some c') :
    c'.DurationsAgree proxy (c.store.eventRows proxy.recordingId) := by
  have hstep : ∀ (s : LiveSession) t s', s.Inv proxy (c.store.eventRows proxy.recordingId) ∧
      s.Timed proxy (c.store.eventRows proxy.recordingId) → s.Calm t →
        s.step proxy order t = some s' →
          s'.Inv proxy (c.store.eventRows proxy.recordingId) ∧
            s'.Timed proxy (c.store.eventRows proxy.recordingId) :=
    fun s t s' h hcalm hstep => ⟨h.1.step hstep, h.2.step h.1 hcalm hstep⟩
  obtain ⟨hinv, htimed⟩ := Machine.invariant hstep ⟨hstart.inv, hstart.timed⟩ hcalm hrun
  exact htimed.durationsAgree hinv

/-- The upstream answers before the pump gets to the request. -/
theorem durationsAgree_late_pump :
    ∃ c', Machine.run (LiveSession.step ⟨"rec_1", "shop", 64, textCodec⟩ .bySequence) oneSession
        [.handler 0, .handler 0, .handler 0, .pump, .pump, .pump, .pump, .pump, .pump] = some c' ∧
      (c'.store.eventRows "rec_1").length = 2 ∧
      c'.DurationsAgree ⟨"rec_1", "shop", 64, textCodec⟩ [] := by
  have hrun : ∃ c',
      Machine.run (LiveSession.step ⟨"rec_1", "shop", 64, textCodec⟩ .bySequence) oneSession
        [.handler 0, .handler 0, .handler 0, .pump, .pump, .pump, .pump, .pump, .pump] = some c' ∧
      (c'.store.eventRows "rec_1").length = 2 := ⟨_, rfl, rfl⟩
  obtain ⟨c', hrun, hlength⟩ := hrun
  exact ⟨c', hrun, hlength, durationsAgree_of_calm starting_oneSession (by decide) hrun⟩

/-- The pump stores the request while the upstream is awaited. -/
theorem not_durationsAgree_early_pump :
    ¬∀ (proxy : ReverseProxy) (order : RowOrder) (c c' : LiveSession) (turns : List SessionTurn),
      c.Starting → Machine.run (LiveSession.step proxy order) c turns = some c' →
        c'.DurationsAgree proxy (c.store.eventRows proxy.recordingId) := by
  intro h
  have hrun : ∃ c',
      Machine.run (LiveSession.step ⟨"rec_1", "shop", 64, textCodec⟩ .bySequence) oneSession
        [.handler 0, .handler 0, .pump, .pump, .pump, .handler 0, .pump, .pump, .pump] = some c' ∧
      (c'.store.eventRows "rec_1").map EventRow.timing =
        [("evt_b", .httpRequest, 0), ("evt_c", .httpResponse, 2)] := ⟨_, rfl, rfl⟩
  obtain ⟨c', hrun, hrows⟩ := hrun
  have hagree := h _ _ _ _ _ starting_oneSession hrun
  -- the stored response, and the duration of any stored request
  have hresponse : ("evt_c", .httpResponse, 2) ∈
      (c'.store.eventRows "rec_1").map EventRow.timing := by simp [hrows]
  obtain ⟨row, hrow, htiming⟩ := List.mem_map.mp hresponse
  obtain ⟨-, hrest⟩ := Prod.mk.inj htiming
  obtain ⟨htype, hduration⟩ := Prod.mk.inj hrest
  obtain ⟨x, -, -, row', hrow', -, htype', hduration'⟩ :=
    hagree row hrow (by simp [oneSession, Store.withRecording, Store.eventRows, Table.empty]) htype
  have hrequest : row'.timing ∈ (c'.store.eventRows "rec_1").map EventRow.timing :=
    List.mem_map_of_mem hrow'
  rw [hrows, EventRow.timing, htype', hduration', hduration] at hrequest
  simp at hrequest

end LiveSession

end InfraReplay
