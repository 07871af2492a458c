import InfraReplay.Common.Pool
import InfraReplay.Recording.Service
import InfraReplay.Replay.Engine
import InfraReplay.Replay.HttpTarget

/-!
# Sending the payloads of a replay

The loop of `_replay_http` over its batches, as a machine. Inside a batch the calls of `send` start
in order and end in any order; the next batch starts when every call of the batch before has
ended. What a step takes from outside is in its label: made-up ids, clock readings and the
target's answer.

`Sending.Inv` says how the requests and the replies belong together after any number of steps.
-/

namespace InfraReplay

open Python

/-- What happens next. -/
inductive SendStep where
  /-- The next call of `send`, up to the point where it waits for the target. -/
  | start (correlationHex eventHex : String) (timestampNs : ℤ)
  /-- The call for the `i`-th payload gets its answer, or the text of a transport error. -/
  | finish (i : ℕ) (outcome : Except String Response) (elapsed : ℤ) (eventHex : String)
      (timestampNs : ℤ)

/-- The client and its calls. -/
structure Sending where
  /-- `self._sequence`. -/
  sequence : ℤ := 0
  /-- The request event of every call that has started, in the order of the payloads. -/
  requests : List Event := []
  /-- The response event of every call that has ended, by the place of its payload. -/
  replies : Dict ℕ Event := []

/-- `_event`. -/
def HttpTarget.event (target : HttpTarget) (eventType : EventType) (payload : Payload)
    (correlationId eventHex : String) (sequence timestampNs durationNs : ℤ)
    (parent : Option String) : Event where
  recordingId := target.recordingId
  eventId := newId "evt" eventHex
  parentEventId := parent
  sequence := sequence
  timestampNs := timestampNs
  durationNs := durationNs
  eventType := eventType
  service := target.service
  correlationId := correlationId
  payload := payload

/-- `max(concurrency, 1)`. -/
def batchSize (concurrency : ℤ) : ℕ := (max concurrency 1).toNat

namespace Sending

section Step

variable (codec : Codec) (target : HttpTarget) (size : ℕ) (payloads : List Payload)

/-- Every call of the batches before the one of the `i`-th payload has ended. -/
def BatchOpen (st : Sending) (i : ℕ) : Prop := ∀ j < i / size * size, j ∈ st.replies.keys

instance (st : Sending) (i : ℕ) : Decidable (st.BatchOpen size i) :=
  inferInstanceAs (Decidable (∀ j < i / size * size, j ∈ st.replies.keys))

/-- `send` up to its `await`: the request event. -/
def started (st : Sending) (payload headers : Payload) (correlationId eventHex : String)
    (timestampNs : ℤ) : Sending :=
  { st with
    sequence := st.sequence + 1
    requests := st.requests ++
      [target.event .httpRequest (HttpTarget.requestPayload payload headers) correlationId eventHex
        st.sequence timestampNs 0 none] }

/-- `send` after its `await`: the duration of the request, and the response event. -/
def answered (st : Sending) (i : ℕ) (request : Event) (outcome : Except String Response)
    (elapsed : ℤ) (eventHex : String) (timestampNs : ℤ) : Sending where
  sequence := st.sequence + 1
  requests := st.requests.set i { request with durationNs := elapsed }
  replies := st.replies.set i
    (target.event .httpResponse (targetResponsePayload codec outcome) request.correlationId
      eventHex st.sequence timestampNs elapsed (some request.eventId))

/-- One step. A made-up correlation id is not one made up before. -/
def step (st : Sending) : SendStep → Option Sending
  | .start correlationHex eventHex timestampNs =>
    match payloads[st.requests.length]? with
    | none => none
    | some payload =>
      -- `asyncio.gather` starts a batch when the batch before has ended
      if st.BatchOpen size st.requests.length ∧
          newId "corr" correlationHex ∉ st.requests.map Event.correlationId then
        (target.headers payload (newId "corr" correlationHex)).map fun headers =>
          st.started target payload headers (newId "corr" correlationHex) eventHex timestampNs
      else none
  | .finish i outcome elapsed eventHex timestampNs =>
    match st.requests[i]? with
    | none => none
    | some request =>
      -- a call ends once
      if i ∈ st.replies.keys then none
      else some (st.answered codec target i request outcome elapsed eventHex timestampNs)

end Step

/-- Every payload has been sent and answered. -/
def Done (payloads : List Payload) (st : Sending) : Prop :=
  ∀ i < payloads.length, i ∈ st.replies.keys

/-- The list `_replay_http` returns: the pairs in the order of the payloads. -/
def events (st : Sending) : List Event :=
  st.requests.zipIdx.flatMap fun p => p.1 :: (st.replies.get? p.2).toList

/-- The correlation ids of the requests, in the order of the payloads. -/
def correlationIds (st : Sending) : List String := st.requests.map Event.correlationId

variable {codec : Codec} {target : HttpTarget} {size : ℕ} {payloads : List Payload}
  {st st' : Sending}

/-- What a step does. -/
theorem step_cases {l : SendStep} (h : st.step codec target size payloads l = some st') :
    (∃ payload headers correlationId eventHex timestampNs,
      payloads[st.requests.length]? = some payload ∧ st.BatchOpen size st.requests.length ∧
        correlationId ∉ st.correlationIds ∧
        target.headers payload correlationId = some headers ∧
        st' = st.started target payload headers correlationId eventHex timestampNs) ∨
      ∃ i request outcome elapsed eventHex timestampNs,
        st.requests[i]? = some request ∧ i ∉ st.replies.keys ∧
          st' = st.answered codec target i request outcome elapsed eventHex timestampNs := by
  cases l with
  | start correlationHex eventHex timestampNs =>
    simp only [step] at h
    split at h
    · -- every payload has been sent
      cases h
    next payload hpayload =>
      split_ifs at h with hopen
      obtain ⟨headers, hheaders, rfl⟩ := Option.map_eq_some_iff.mp h
      exact .inl ⟨payload, headers, _, eventHex, timestampNs, hpayload, hopen.1, hopen.2,
        hheaders, rfl⟩
  | finish i outcome elapsed eventHex timestampNs =>
    simp only [step] at h
    split at h
    · -- no such call has started
      cases h
    next request hrequest =>
      split_ifs at h with hnew
      exact .inr ⟨i, request, outcome, elapsed, eventHex, timestampNs, hrequest, hnew,
        (Option.some.inj h).symm⟩

/-! ### Requests and replies -/

/-- The request event that `send` makes for a payload. -/
structure IsRequest (target : HttpTarget) (payload : Payload) (request : Event) : Prop where
  eventType : request.eventType = .httpRequest
  recordingId : request.recordingId = target.recordingId
  payload : ∃ headers, target.headers payload request.correlationId = some headers ∧
    request.payload = HttpTarget.requestPayload payload headers

/-- The response event that `send` makes for its request event. -/
structure IsReply (target : HttpTarget) (request reply : Event) : Prop where
  eventType : reply.eventType = .httpResponse
  recordingId : reply.recordingId = target.recordingId
  correlationId : reply.correlationId = request.correlationId
  parent : reply.parentEventId = some request.eventId

/-- What holds after any number of steps: the `i`-th request is the `i`-th payload's, and the reply
at `i` is its. -/
structure Inv (target : HttpTarget) (payloads : List Payload) (st : Sending) : Prop where
  nodup : st.correlationIds.Nodup
  request : ∀ (i : ℕ) (request : Event), st.requests[i]? = some request →
    ∃ payload, payloads[i]? = some payload ∧ IsRequest target payload request
  reply : ∀ (i : ℕ) (reply : Event), st.replies.get? i = some reply →
    ∃ request, st.requests[i]? = some request ∧ IsReply target request reply

theorem inv_init : Inv target payloads {} where
  nodup := List.nodup_nil
  request := by simp
  reply := by simp

/-- A request starts. -/
theorem Inv.started (h : st.Inv target payloads) {payload headers : Payload}
    {correlationId : String} (hpayload : payloads[st.requests.length]? = some payload)
    (hnew : correlationId ∉ st.correlationIds)
    (hheaders : target.headers payload correlationId = some headers) (eventHex : String)
    (timestampNs : ℤ) :
    (st.started target payload headers correlationId eventHex timestampNs).Inv target payloads where
  nodup := by
    rw [correlationIds, Sending.started, List.map_append, List.map_singleton,
      List.nodup_append_singleton]
    exact ⟨h.nodup, hnew⟩
  request i request hi := by
    rw [Sending.started, List.getElem?_append] at hi
    split_ifs at hi with hlt
    · exact h.request i request hi
    · -- the new request is the one after the last
      rw [List.getElem?_singleton] at hi
      split_ifs at hi with hzero
      obtain rfl := Option.some.inj hi
      have hlast : i = st.requests.length := by omega
      exact ⟨payload, hlast ▸ hpayload, rfl, rfl, headers, hheaders, rfl⟩
  reply i reply hi := by
    -- the requests so far keep their places when one is appended
    obtain ⟨request, hrequest, hreply⟩ := h.reply i reply hi
    obtain ⟨hlt, -⟩ := List.getElem?_eq_some_iff.mp hrequest
    exact ⟨request, (List.getElem?_append_left hlt).trans hrequest, hreply⟩

/-- A request is answered. -/
theorem Inv.answered (h : st.Inv target payloads) {i : ℕ} {request : Event}
    (hrequest : st.requests[i]? = some request) (outcome : Except String Response) (elapsed : ℤ)
    (eventHex : String) (timestampNs : ℤ) :
    (st.answered codec target i request outcome elapsed eventHex timestampNs).Inv target
      payloads where
  nodup := by
    -- only the duration of the request changes
    have hids : (st.answered codec target i request outcome elapsed eventHex
        timestampNs).correlationIds = st.correlationIds :=
      List.map_set_of_eq hrequest rfl
    rw [hids]
    exact h.nodup
  request j request' hj := by
    rw [Sending.answered, List.getElem?_set] at hj
    split_ifs at hj with hij hlt
    · obtain rfl := Option.some.inj hj
      obtain ⟨payload, hpayload, hreq⟩ := h.request i request hrequest
      exact ⟨payload, hij ▸ hpayload, hreq.eventType, hreq.recordingId, hreq.payload⟩
    · exact h.request j request' hj
  reply j reply hj := by
    obtain ⟨hlt, -⟩ := List.getElem?_eq_some_iff.mp hrequest
    rw [Sending.answered, Dict.get?_set] at hj
    split_ifs at hj with hij
    · -- the new reply, whose request is the one just updated
      subst hij
      obtain rfl := Option.some.inj hj
      refine ⟨{ request with durationNs := elapsed }, ?_, rfl, rfl, rfl, rfl⟩
      exact List.getElem?_set_self hlt
    · obtain ⟨request', hrequest', hreply⟩ := h.reply j reply hj
      exact ⟨request', (List.getElem?_set_ne hij).trans hrequest', hreply⟩

/-- A step keeps the invariant. -/
theorem Inv.step {l : SendStep} (h : st.Inv target payloads)
    (hstep : st.step codec target size payloads l = some st') : st'.Inv target payloads := by
  rcases step_cases hstep with
    ⟨payload, headers, correlationId, eventHex, timestampNs, hpayload, -, hnew, hheaders, rfl⟩ |
      ⟨i, request, outcome, elapsed, eventHex, timestampNs, hrequest, -, rfl⟩
  · exact h.started hpayload hnew hheaders eventHex timestampNs
  · exact h.answered hrequest outcome elapsed eventHex timestampNs

/-- Every event is made for the recording the target sends for. -/
theorem Inv.recordingId_of_mem_events (h : st.Inv target payloads) {e : Event}
    (he : e ∈ st.events) : e.recordingId = target.recordingId := by
  obtain ⟨⟨request, i⟩, hp, he⟩ := List.mem_flatMap.mp he
  rcases List.mem_cons.mp he with rfl | he
  · obtain ⟨payload, -, hrequest⟩ := h.request i _ (List.mem_zipIdx_iff_getElem?.mp hp)
    exact hrequest.recordingId
  · obtain ⟨request', -, hreply⟩ := h.reply i e (Option.mem_toList.mp he)
    exact hreply.recordingId

/-- The invariant holds after every run. -/
theorem inv_run {labels : List SendStep}
    (hrun : Machine.run (Sending.step codec target size payloads) {} labels = some st) :
    st.Inv target payloads :=
  Machine.invariant_run (fun _ _ _ h hstep => h.step hstep) inv_init hrun

end Sending

end InfraReplay
