import InfraReplay.Replay.HttpRun

/-!
# A replay over HTTP, batch by batch

`_replay_http` from its payloads to the list it returns: the generator `_batches`, the calls of
`send` that `asyncio.gather` runs together, and the loop that collects their pairs. A label says
which part runs next and what it gets from outside, so a run is one order in which the requests in
flight can be answered.

* `HttpReplay.Inv` says what the calls, the shared sequence counter and the collected events have to
  do with each other after any number of steps.
* `HttpReplay.step_exists` and `HttpReplay.length_run_le` say that the loop goes on until it
  returns, and that it does return.
* `HttpReplay.Refines` is the relation under which the loop is a case of the machine of `HttpRun`,
  which knows no batches but only when a call may start.
-/

namespace InfraReplay

open Python

/-- `payloads[start : start + size]`. -/
def batchFrom (payloads : List Payload) (size start : ℕ) : List Payload :=
  (payloads.drop start).take size

/-- A call of `send` that has started. -/
inductive SendCall where
  /-- It waits for the target. -/
  | waiting (request : Event)
  /-- It has returned its pair. -/
  | returned (request reply : Event)

namespace SendCall

/-- The request event of the call. -/
def request : SendCall → Event
  | .waiting request => request
  | .returned request _ => request

/-- The response event of the call, once there is one. -/
def reply? : SendCall → Option Event
  | .waiting _ => none
  | .returned _ reply => some reply

/-- The events the call has made, the request first. -/
def events (call : SendCall) : List Event := call.request :: call.reply?.toList

/-- The call waits for the target. -/
def isWaiting (call : SendCall) : Bool := call.reply?.isNone

@[simp]
theorem request_waiting (request : Event) : (SendCall.waiting request).request = request := rfl

@[simp]
theorem request_returned (request reply : Event) :
    (SendCall.returned request reply).request = request := rfl

@[simp]
theorem isWaiting_waiting (request : Event) : (SendCall.waiting request).isWaiting = true := rfl

@[simp]
theorem isWaiting_returned (request reply : Event) :
    (SendCall.returned request reply).isWaiting = false := rfl

/-- A call that is waiting is nothing but its request. -/
theorem exists_waiting {call : SendCall} (h : call.isWaiting = true) :
    ∃ request, call = .waiting request := by
  cases call with
  | waiting request => exact ⟨request, rfl⟩
  | returned request reply => cases h

/-- A call that is not waiting holds a request and its reply. -/
theorem exists_returned {call : SendCall} (h : call.isWaiting = false) :
    ∃ request reply, call = .returned request reply := by
  cases call with
  | waiting request => cases h
  | returned request reply => exact ⟨request, reply, rfl⟩

end SendCall

/-- What runs next. -/
inductive ReplayStep where
  /-- The next call of the batch, up to the point where it waits for the target. -/
  | send (correlationHex eventHex : String) (timestampNs : ℤ)
  /-- The `i`-th call gets its answer, or the text of a transport error, and returns. -/
  | answer (i : ℕ) (outcome : Except String Response) (elapsed : ℤ) (eventHex : String)
      (timestampNs : ℤ)
  /-- The `i`-th call gets an exception that `send` does not catch. -/
  | raise (i : ℕ) (error : Error)
  /-- The gather of the batch is over, and its pairs are collected. -/
  | gather
  /-- There is no further batch. -/
  | finish

/-- A running `_replay_http`. -/
structure HttpReplay where
  /-- `self._sequence` of the client, which all calls share. -/
  sequence : ℕ := 0
  /-- `start` of `_batches`. -/
  start : ℕ := 0
  /-- Every call that has started, in the order of the payloads. -/
  calls : List SendCall := []
  /-- What httpx has been asked for, in the order of the sends. -/
  sent : List HttpTarget.Outgoing := []
  /-- `replayed`. -/
  replayed : List Event := []
  /-- What `_replay_http` has returned or raised. -/
  result : Option (Except Error (List Event)) := none

namespace HttpReplay

/-- `_replay_http` before its first batch. -/
def init (source : Recording) : HttpReplay where
  result :=
    if requestsOf source.events = [] then
      some (.error (.replayError "recording contains no HTTP requests to replay"))
    else none

/-- The requests in flight. -/
def inFlight (st : HttpReplay) : ℕ := st.calls.countP SendCall.isWaiting

section Step

variable (codec : Codec) (fmt : Value → String) (target : HttpTarget) (size : ℕ)
  (payloads : List Payload)

/-- `send` up to its `await`. -/
def sending (st : HttpReplay) (payload headers : Payload) (correlationId eventHex : String)
    (timestampNs : ℤ) : HttpReplay :=
  { st with
    sequence := st.sequence + 1
    calls := st.calls ++
      [.waiting (target.event .httpRequest (HttpTarget.requestPayload payload headers)
        correlationId eventHex st.sequence timestampNs 0 none)]
    sent := st.sent ++ [target.outgoing fmt payload headers] }

/-- `send` after its `await`. -/
def answered (st : HttpReplay) (i : ℕ) (request : Event) (outcome : Except String Response)
    (elapsed : ℤ) (eventHex : String) (timestampNs : ℤ) : HttpReplay :=
  { st with
    sequence := st.sequence + 1
    calls := st.calls.set i (.returned { request with durationNs := elapsed }
      (target.event .httpResponse (targetResponsePayload codec outcome) request.correlationId
        eventHex st.sequence timestampNs elapsed (some request.eventId))) }

/-- `replayed.extend(pair)` for the pairs of the batch, and on to the next one. -/
def gathered (st : HttpReplay) : HttpReplay :=
  { st with
    start := st.start + size
    replayed := st.replayed ++ (st.calls.drop st.start).flatMap SendCall.events }

/-- One step. The first exception of a call is the exception of the whole replay. -/
def step (st : HttpReplay) (l : ReplayStep) : Option HttpReplay :=
  if st.result.isSome then none
  else
    match l with
    | .send correlationHex eventHex timestampNs =>
      match (batchFrom payloads size st.start)[st.calls.length - st.start]? with
      | none => none
      | some payload =>
        match target.headers payload (newId "corr" correlationHex) with
        -- `.items()` of a value that is no object
        | none =>
          some { st with
            result := some (.error (.attributeError ("'" ++ (payload.getD "headers").typeName ++
              "' object has no attribute 'items'"))) }
        | some headers =>
          some (st.sending fmt target payload headers (newId "corr" correlationHex) eventHex
            timestampNs)
    | .answer i outcome elapsed eventHex timestampNs =>
      match st.calls[i]? with
      | some (.waiting request) =>
        some (st.answered codec target i request outcome elapsed eventHex timestampNs)
      | _ => none
    | .raise i error =>
      match st.calls[i]? with
      | some (.waiting _) => some { st with result := some (.error error) }
      | _ => none
    | .gather =>
      if st.start < payloads.length ∧
          st.calls.length = st.start + (batchFrom payloads size st.start).length ∧
            ∀ call ∈ st.calls.drop st.start, call.isWaiting = false then
        some (st.gathered size)
      else none
    | .finish =>
      if payloads.length ≤ st.start then some { st with result := some (.ok st.replayed) }
      else none

end Step

variable {codec : Codec} {fmt : Value → String} {target : HttpTarget} {size : ℕ}
  {payloads : List Payload} {st st' : HttpReplay}

/-- The `k`-th payload of a batch is the one `k` places after the batch's start. -/
theorem getElem?_batchFrom_eq_some {start k : ℕ} {payload : Payload}
    (h : (batchFrom payloads size start)[k]? = some payload) :
    k < size ∧ payloads[start + k]? = some payload := by
  rw [batchFrom, List.getElem?_take] at h
  split_ifs at h with hk
  rw [List.getElem?_drop] at h
  exact ⟨hk, h⟩

/-- A batch is full unless the payloads run out. -/
theorem length_batchFrom (start : ℕ) :
    (batchFrom payloads size start).length = min size (payloads.length - start) := by
  rw [batchFrom, List.length_take, List.length_drop]

/-- A call that starts has not returned. -/
theorem returned_mem_of_sending {payload headers : Payload} {correlationId eventHex : String}
    {timestampNs : ℤ} {request reply : Event}
    (h : SendCall.returned request reply ∈
      (st.sending fmt target payload headers correlationId eventHex timestampNs).calls) :
    SendCall.returned request reply ∈ st.calls := by
  simp only [sending, List.mem_append, List.mem_singleton] at h
  rcases h with h | h
  · exact h
  · cases h

/-- A call has returned before the answer, or it is the one that is answered. -/
theorem returned_mem_answered {i : ℕ} {request : Event} {outcome : Except String Response}
    {elapsed : ℤ} {eventHex : String} {timestampNs : ℤ} {request' reply : Event}
    (h : SendCall.returned request' reply ∈
      (st.answered codec target i request outcome elapsed eventHex timestampNs).calls) :
    SendCall.returned request' reply ∈ st.calls ∨
      request' = { request with durationNs := elapsed } ∧
        reply = target.event .httpResponse (targetResponsePayload codec outcome)
          request.correlationId eventHex st.sequence timestampNs elapsed
            (some request.eventId) := by
  simp only [answered] at h
  rcases List.mem_or_eq_of_mem_set h with h | heq
  · exact .inl h
  · exact .inr (SendCall.returned.inj heq)

/-- What a step does to a replay that has no result yet. -/
inductive Stepped (codec : Codec) (fmt : Value → String) (target : HttpTarget) (size : ℕ)
    (payloads : List Payload) (st : HttpReplay) (l : ReplayStep) : HttpReplay → Prop where
  | send (payload headers : Payload) (correlationHex eventHex : String) (timestampNs : ℤ)
      (hplace : st.calls.length - st.start < size)
      (hpayload : payloads[st.start + (st.calls.length - st.start)]? = some payload)
      (hheaders : target.headers payload (newId "corr" correlationHex) = some headers) :
      Stepped codec fmt target size payloads st l
        (st.sending fmt target payload headers (newId "corr" correlationHex) eventHex timestampNs)
  | answer (i : ℕ) (request : Event) (outcome : Except String Response) (elapsed : ℤ)
      (eventHex : String) (timestampNs : ℤ) (hcall : st.calls[i]? = some (.waiting request)) :
      Stepped codec fmt target size payloads st l
        (st.answered codec target i request outcome elapsed eventHex timestampNs)
  | gather (hstart : st.start < payloads.length)
      (hlength : st.calls.length = st.start + min size (payloads.length - st.start))
      (hended : ∀ call ∈ st.calls.drop st.start, call.isWaiting = false) :
      Stepped codec fmt target size payloads st l (st.gathered size)
  | raise (error : Error) (hcause : (∃ i, l = .raise i error) ∨
        ∃ payload ∈ payloads, ∃ correlationId, target.headers payload correlationId = none) :
      Stepped codec fmt target size payloads st l { st with result := some (.error error) }
  | finish (hstart : payloads.length ≤ st.start) :
      Stepped codec fmt target size payloads st l { st with result := some (.ok st.replayed) }

/-- Everything that a step of the replay can do, one case for each label. -/
theorem stepped_of_step {l : ReplayStep} (h : st.step codec fmt target size payloads l = some st') :
    st.result = none ∧ Stepped codec fmt target size payloads st l st' := by
  have hresult : ¬st.result.isSome := by
    intro hsome
    rw [step.eq_def, if_pos hsome] at h
    cases h
  refine ⟨by simpa using hresult, ?_⟩
  rw [step.eq_def, if_neg hresult] at h
  cases l with
  | send correlationHex eventHex timestampNs =>
    simp only at h
    split at h
    · -- all payloads of the batch have been sent
      cases h
    next payload hpayload =>
      obtain ⟨hplace, hpayload⟩ := getElem?_batchFrom_eq_some hpayload
      split at h
      -- headers.items() of something that is no object raises before anything is sent
      next hheaders =>
        obtain rfl := Option.some.inj h
        exact .raise _ (.inr ⟨payload, List.mem_of_getElem? hpayload, _, hheaders⟩)
      next headers hheaders =>
        obtain rfl := Option.some.inj h
        exact .send payload headers correlationHex eventHex timestampNs hplace hpayload hheaders
  | answer i outcome elapsed eventHex timestampNs =>
    simp only at h
    split at h
    next request hcall =>
      obtain rfl := Option.some.inj h
      exact .answer i request outcome elapsed eventHex timestampNs hcall
    next => cases h
  | raise i error =>
    simp only at h
    split at h
    next request hcall =>
      obtain rfl := Option.some.inj h
      exact .raise error (.inl ⟨i, rfl⟩)
    next => cases h
  | gather =>
    simp only at h
    split_ifs at h with hgather
    obtain ⟨hstart, hlength, hended⟩ := hgather
    obtain rfl := Option.some.inj h
    rw [length_batchFrom] at hlength
    exact .gather hstart hlength hended
  | finish =>
    simp only at h
    split_ifs at h with hstart
    obtain rfl := Option.some.inj h
    exact .finish hstart

/-! ### The loop over the batches -/

/-- Where the loop is: the calls of the batches before `start` have returned and their pairs have
been collected; the calls after that are those of one batch. -/
structure Loop (size : ℕ) (payloads : List Payload) (st : HttpReplay) : Prop where
  dvd_start : size ∣ st.start
  length_le_start : st.calls.length ≤ st.start + size
  length_le : st.calls.length ≤ payloads.length
  start_le : st.start ≤ st.calls.length ∨ st.calls.length = payloads.length
  returned : ∀ call ∈ st.calls.take st.start, call.isWaiting = false
  replayed : st.replayed = (st.calls.take st.start).flatMap SendCall.events
  result : ∀ events, st.result = some (.ok events) →
    events = st.replayed ∧ payloads.length ≤ st.start

/-- The loop starts at its first batch. -/
theorem loop_init (source : Recording) (h : requestsOf source.events ≠ []) :
    (init source).Loop size payloads where
  dvd_start := Nat.dvd_zero _
  length_le_start := Nat.zero_le _
  length_le := Nat.zero_le _
  start_le := .inl (le_refl 0)
  returned call hcall := by cases hcall
  replayed := rfl
  result events hevents := by
    rw [init, if_neg h] at hevents
    cases hevents

/-- A batch that still has a payload to send has not sent less than its start. -/
theorem Loop.start_le_length (h : st.Loop size payloads) {payload : Payload}
    (hpayload : payloads[st.start + (st.calls.length - st.start)]? = some payload) :
    st.start ≤ st.calls.length := by
  obtain ⟨hlt, -⟩ := List.getElem?_eq_some_iff.mp hpayload
  have hle := h.start_le
  omega

/-- A call of an earlier batch does not wait any more. -/
theorem Loop.returned_of_lt (h : st.Loop size payloads) {i : ℕ} {call : SendCall}
    (hi : i < st.start) (hcall : st.calls[i]? = some call) : call.isWaiting = false := by
  apply h.returned
  exact List.mem_of_getElem? ((List.getElem?_take_of_lt hi).trans hcall)

/-- A call that starts or returns leaves the batches before its own as they are. -/
theorem Loop.within_batch (h : st.Loop size payloads) (hstart : st'.start = st.start)
    (htake : st'.calls.take st.start = st.calls.take st.start)
    (hreplayed : st'.replayed = st.replayed) (hresult : st'.result = none)
    (hplace : st'.calls.length ≤ st.start + size) (hlength : st'.calls.length ≤ payloads.length)
    (hle : st.start ≤ st'.calls.length ∨ st'.calls.length = payloads.length) :
    st'.Loop size payloads := by
  refine ⟨hstart ▸ h.dvd_start, hstart ▸ hplace, hlength, hstart ▸ hle, ?_, ?_, ?_⟩
  · rw [hstart, htake]
    exact h.returned
  · rw [hstart, htake, hreplayed]
    exact h.replayed
  · intro events hevents
    rw [hresult] at hevents
    cases hevents

/-- A step keeps the loop in order. -/
theorem Loop.step {l : ReplayStep} (h : st.Loop size payloads) (hresult : st.result = none)
    (hstep : Stepped codec fmt target size payloads st l st') : st'.Loop size payloads := by
  cases hstep with
  | send payload headers correlationHex eventHex timestampNs hplace hpayload hheaders =>
    -- the new call belongs to the batch that is being sent, so the calls before stay
    obtain ⟨hlt, -⟩ := List.getElem?_eq_some_iff.mp hpayload
    have hstart : st.start ≤ st.calls.length := h.start_le_length hpayload
    apply h.within_batch
    · rfl
    · exact List.take_append_of_le_length hstart
    · rfl
    · exact hresult
    · simp only [sending, List.length_append, List.length_singleton]
      omega
    · simp only [sending, List.length_append, List.length_singleton]
      omega
    · left
      simp only [sending, List.length_append, List.length_singleton]
      omega
  | answer i request outcome elapsed eventHex timestampNs hcall =>
    -- the calls of earlier batches have returned: it is one of this batch that is answered
    have hi : st.start ≤ i := by
      by_contra hlt
      have hret := h.returned_of_lt (Nat.lt_of_not_le hlt) hcall
      cases hret
    have hlen : (st.answered codec target i request outcome elapsed eventHex
        timestampNs).calls.length = st.calls.length := List.length_set
    apply h.within_batch
    · rfl
    · exact List.take_set_of_le hi
    · rfl
    · exact hresult
    · exact hlen ▸ h.length_le_start
    · exact hlen ▸ h.length_le
    · exact hlen ▸ h.start_le
  | gather hstart hlength hended =>
    -- no call has been sent beyond the batch
    have hall : st.calls.take (st.start + size) = st.calls := List.take_of_length_le (by omega)
    refine ⟨(Nat.dvd_add_right h.dvd_start).mpr (dvd_refl size), ?_, h.length_le, ?_, ?_, ?_, ?_⟩
    · simp only [gathered]
      omega
    · simp only [gathered]
      omega
    · intro call hcall
      simp only [gathered, hall] at hcall
      -- the batch that ends now, or one before
      rw [← List.take_append_drop st.start st.calls] at hcall
      rcases List.mem_append.mp hcall with hcall | hcall
      · exact h.returned call hcall
      · exact hended call hcall
    · simp only [gathered, hall]
      rw [h.replayed, ← List.flatMap_append, List.take_append_drop]
    · intro events hevents
      exact absurd (hresult.symm.trans hevents) (by simp)
  | raise error hcause =>
    exact ⟨h.dvd_start, h.length_le_start, h.length_le, h.start_le, h.returned, h.replayed,
      fun events hevents => by cases hevents⟩
  | finish hstart =>
    refine ⟨h.dvd_start, h.length_le_start, h.length_le, h.start_le, h.returned, h.replayed,
      fun events hevents => ?_⟩
    obtain rfl : st.replayed = events := by simpa using hevents
    exact ⟨rfl, hstart⟩

/-- When the replay returns, every payload has its call, every call has returned, and their pairs
are the result. -/
theorem Loop.ended (h : st.Loop size payloads) {events : List Event}
    (hresult : st.result = some (.ok events)) :
    events = st.calls.flatMap SendCall.events ∧ st.calls.length = payloads.length ∧
      ∀ call ∈ st.calls, call.isWaiting = false := by
  obtain ⟨rfl, hstart⟩ := h.result events hresult
  have hlength : st.calls.length = payloads.length := by
    have hle := h.length_le
    have hstart' := h.start_le
    omega
  -- the last batch has been collected
  have hall : st.calls.take st.start = st.calls := List.take_of_length_le (by omega)
  refine ⟨?_, hlength, fun call hcall => ?_⟩
  · rw [h.replayed, hall]
  · rw [← hall] at hcall
    exact h.returned call hcall

/-- At most one batch is in flight. -/
theorem Loop.inFlight_le (h : st.Loop size payloads) : st.inFlight ≤ size := by
  have hsplit : st.inFlight = (st.calls.take st.start).countP SendCall.isWaiting +
      (st.calls.drop st.start).countP SendCall.isWaiting := by
    rw [← List.countP_append, List.take_append_drop, inFlight]
  have hnone : (st.calls.take st.start).countP SendCall.isWaiting = 0 :=
    List.countP_eq_zero.mpr fun call hcall => by simp [h.returned call hcall]
  have hbatch :
      (st.calls.drop st.start).countP SendCall.isWaiting ≤ st.calls.length - st.start := by
    rw [← List.length_drop]
    exact List.countP_le_length
  have hlength := h.length_le_start
  omega

/-- A call of a later batch starts when every call of the batch has returned. -/
theorem Loop.returned_of_div_lt (h : st.Loop size payloads) {i j : ℕ}
    (hi : i < st.calls.length) (hij : j / size < i / size) :
    ∃ request reply, st.calls[j]? = some (.returned request reply) := by
  obtain ⟨k, hk⟩ := h.dvd_start
  have hlength := h.length_le_start
  have hsize : 0 < size := by
    by_contra hzero
    obtain rfl : size = 0 := by omega
    simp at hij
  -- the batch of `i` is at most the current one, so the batch of `j` is an earlier one
  have hik : i / size ≤ k := by
    have hlt : i / size < k + 1 := by
      rw [Nat.div_lt_iff_lt_mul hsize, Nat.add_mul, Nat.mul_comm k]
      omega
    omega
  have hj : j < st.start := by
    rw [hk, Nat.mul_comm, ← Nat.div_lt_iff_lt_mul hsize]
    omega
  have hji : j < i := by
    by_contra hle
    exact absurd (Nat.div_le_div_right (c := size) (Nat.le_of_not_lt hle)) (by omega)
  obtain ⟨call, hcall⟩ : ∃ call, st.calls[j]? = some call :=
    ⟨_, List.getElem?_eq_getElem (hji.trans hi)⟩
  obtain ⟨request, reply, rfl⟩ := SendCall.exists_returned (h.returned_of_lt hj hcall)
  exact ⟨request, reply, hcall⟩

/-! ### Requests, replies and their numbers -/

/-- The `i`-th call sends the `i`-th payload, and what it returns belongs to what it sent. -/
structure Paired (fmt : Value → String) (target : HttpTarget) (payloads : List Payload)
    (st : HttpReplay) : Prop where
  length_sent : st.sent.length = st.calls.length
  request : ∀ (i : ℕ) (call : SendCall), st.calls[i]? = some call → ∃ payload headers,
    payloads[i]? = some payload ∧
      target.headers payload call.request.correlationId = some headers ∧
      st.sent[i]? = some (target.outgoing fmt payload headers) ∧
      Sending.IsRequest target payload call.request
  reply : ∀ request reply, SendCall.returned request reply ∈ st.calls →
    Sending.IsReply target request reply

/-- Nothing is sent at the start. -/
theorem paired_init (source : Recording) : (init source).Paired fmt target payloads where
  length_sent := rfl
  request i call hcall := by cases hcall
  reply request reply hmem := by cases hmem

/-- A step keeps requests and replies together. -/
theorem Paired.step {l : ReplayStep} (h : st.Paired fmt target payloads)
    (hloop : st.Loop size payloads) (hstep : Stepped codec fmt target size payloads st l st') :
    st'.Paired fmt target payloads := by
  cases hstep with
  | send payload headers correlationHex eventHex timestampNs hplace hpayload hheaders =>
    have hstart := hloop.start_le_length hpayload
    -- the calls of a batch start in the order of their payloads
    have hnext : payloads[st.calls.length]? = some payload := by
      rw [← hpayload]
      congr 1
      omega
    refine ⟨?_, fun i call hcall => ?_, fun request reply hmem => ?_⟩
    · simp [sending, h.length_sent]
    · simp only [sending, List.getElem?_append] at hcall ⊢
      rw [h.length_sent]
      split_ifs at hcall ⊢ with hlt
      · exact h.request i call hcall
      · -- the call that starts now
        rw [List.getElem?_singleton] at hcall
        split_ifs at hcall with hzero
        obtain rfl := Option.some.inj hcall
        obtain rfl : i = st.calls.length := by omega
        refine ⟨payload, headers, hnext, hheaders, ?_, rfl, rfl, headers, hheaders, rfl⟩
        rw [Nat.sub_self]
        rfl
    · exact h.reply request reply (returned_mem_of_sending hmem)
  | answer i request outcome elapsed eventHex timestampNs hcall =>
    refine ⟨?_, fun j call hj => ?_, fun request' reply hmem => ?_⟩
    · simp [answered, h.length_sent]
    · simp only [answered, List.getElem?_set] at hj ⊢
      split_ifs at hj with hij hlt
      · -- only the duration of the request has changed
        obtain rfl := Option.some.inj hj
        obtain ⟨payload, headers, hpayload, hheaders, hsent, hrequest⟩ := h.request i _ hcall
        exact ⟨payload, headers, hij ▸ hpayload, hheaders, hij ▸ hsent, hrequest.eventType,
          hrequest.recordingId, hrequest.payload⟩
      · exact h.request j call hj
    · rcases returned_mem_answered hmem with hmem | ⟨rfl, rfl⟩
      · exact h.reply request' reply hmem
      · exact ⟨rfl, rfl, rfl, rfl⟩
  | gather hstart hlength hended => exact ⟨h.length_sent, h.request, h.reply⟩
  | raise error hcause => exact ⟨h.length_sent, h.request, h.reply⟩
  | finish hstart => exact ⟨h.length_sent, h.request, h.reply⟩

/-- The numbers of the events are those that have been counted, each once; requests are numbered
in the order of the payloads, and a response after its request. -/
structure Numbered (st : HttpReplay) : Prop where
  perm : ((st.calls.flatMap SendCall.events).map Event.sequence).Perm
    ((List.range st.sequence).map Nat.cast)
  increasing : (st.calls.map fun call => call.request.sequence).Pairwise (· < ·)
  lt_sequence : ∀ call ∈ st.calls, call.request.sequence < st.sequence
  lt_reply : ∀ request reply, SendCall.returned request reply ∈ st.calls →
    request.sequence < reply.sequence

/-- No sequence is given out at the start. -/
theorem numbered_init (source : Recording) : (init source).Numbered where
  perm := List.Perm.nil
  increasing := List.Pairwise.nil
  lt_sequence call hcall := by cases hcall
  lt_reply request reply hmem := by cases hmem

/-- A step counts on. -/
theorem Numbered.step {l : ReplayStep} (h : st.Numbered)
    (hstep : Stepped codec fmt target size payloads st l st') : st'.Numbered := by
  cases hstep with
  | send payload headers correlationHex eventHex timestampNs hplace hpayload hheaders =>
    -- the request takes the next number, which is above all the numbers so far
    refine ⟨?_, ?_, ?_, ?_⟩
    · simp only [sending, List.flatMap_append, List.map_append, List.range_succ]
      exact h.perm.append (List.Perm.refl _)
    · simp only [sending, List.map_append, List.pairwise_append]
      refine ⟨h.increasing, List.pairwise_singleton _ _, fun m hm n hn => ?_⟩
      obtain ⟨call, hcall, rfl⟩ := List.mem_map.mp hm
      obtain rfl := List.mem_singleton.mp hn
      exact h.lt_sequence call hcall
    · simp only [sending]
      refine List.forall_mem_concat (fun call hcall => ?_) ?_
      · have hlt := h.lt_sequence call hcall
        push_cast
        omega
      · simp [HttpTarget.event]
    · intro request reply hmem
      exact h.lt_reply request reply (returned_mem_of_sending hmem)
  | answer i request outcome elapsed eventHex timestampNs hcall =>
    have hlt := h.lt_sequence _ (List.mem_of_getElem? hcall)
    refine ⟨?_, ?_, ?_, ?_⟩
    · -- the number of the request is still there, and one is added
      have hswap := List.flatMap_set_perm (f := fun call => call.events.map Event.sequence) hcall
        (.returned { request with durationNs := elapsed }
          (target.event .httpResponse (targetResponsePayload codec outcome) request.correlationId
            eventHex st.sequence timestampNs elapsed (some request.eventId)))
      simp only [answered, List.map_flatMap, List.range_succ, List.map_append]
      have hperm := h.perm
      rw [List.map_flatMap] at hperm
      refine (List.Perm.cons_inv (hswap : (request.sequence :: _).Perm
        (request.sequence :: (st.sequence : ℤ) :: _))).trans ?_
      exact (hperm.cons _).trans (List.perm_append_singleton _ _).symm
    · have hkeep : (st.answered codec target i request outcome elapsed eventHex
          timestampNs).calls.map (fun call => call.request.sequence) =
            st.calls.map fun call => call.request.sequence :=
        List.map_set_of_eq hcall rfl
      rw [hkeep]
      exact h.increasing
    · simp only [answered]
      refine List.forall_mem_set (fun call hcall => ?_) ?_
      · have hlt := h.lt_sequence call hcall
        push_cast
        omega
      · simp only [SendCall.request_waiting, SendCall.request_returned] at hlt ⊢
        push_cast
        omega
    · intro request' reply hmem
      rcases returned_mem_answered hmem with hmem | ⟨rfl, rfl⟩
      · exact h.lt_reply request' reply hmem
      · exact hlt
  | gather hstart hlength hended => exact ⟨h.perm, h.increasing, h.lt_sequence, h.lt_reply⟩
  | raise error hcause => exact ⟨h.perm, h.increasing, h.lt_sequence, h.lt_reply⟩
  | finish hstart => exact ⟨h.perm, h.increasing, h.lt_sequence, h.lt_reply⟩

/-- What holds after any number of steps. -/
structure Inv (fmt : Value → String) (target : HttpTarget) (size : ℕ) (payloads : List Payload)
    (st : HttpReplay) : Prop where
  loop : st.Loop size payloads
  paired : st.Paired fmt target payloads
  numbered : st.Numbered

/-- A step keeps the three parts of the invariant together. -/
theorem Inv.step {l : ReplayStep} (h : st.Inv fmt target size payloads)
    (hstep : st.step codec fmt target size payloads l = some st') :
    st'.Inv fmt target size payloads := by
  obtain ⟨hresult, hstep⟩ := stepped_of_step hstep
  exact ⟨h.loop.step hresult hstep, h.paired.step h.loop hstep, h.numbered.step hstep⟩

/-- The invariant holds at the start. -/
theorem inv_init {source : Recording} (hsource : requestsOf source.events ≠ []) :
    (init source).Inv fmt target size payloads :=
  ⟨loop_init source hsource, paired_init source, numbered_init source⟩

/-- So it holds in every state that the replay reaches. -/
theorem inv_run {source : Recording} (hsource : requestsOf source.events ≠ [])
    {labels : List ReplayStep}
    (hrun : Machine.run (step codec fmt target size payloads) (init source) labels = some st) :
    st.Inv fmt target size payloads :=
  Machine.invariant_run (fun _ _ _ h hstep => h.step hstep) (inv_init hsource) hrun

/-! ### The loop goes on, and ends -/

/-- How many steps are left at most: two for a payload not sent, one for a call that waits, one for
a batch to be collected, and the last one. -/
def left (payloads : List Payload) (st : HttpReplay) : ℕ :=
  2 * (payloads.length - st.calls.length) + st.inFlight + (payloads.length - st.start) +
    if st.result.isNone then 1 else 0

/-- A step takes something off what is left. -/
theorem left_lt_of_step (hsize : 0 < size) (hloop : st.Loop size payloads) {l : ReplayStep}
    (h : st.step codec fmt target size payloads l = some st') :
    st'.left payloads < st.left payloads := by
  obtain ⟨hresult, hstep⟩ := stepped_of_step h
  have hlength := hloop.length_le
  rw [left, left, hresult]
  cases hstep with
  | send payload headers correlationHex eventHex timestampNs hplace hpayload hheaders =>
    -- two for the payload are given up, one for the call that waits is added
    obtain ⟨hlt, -⟩ := List.getElem?_eq_some_iff.mp hpayload
    simp only [sending, inFlight, hresult, List.length_append, List.length_singleton,
      List.countP_append, List.countP_singleton, SendCall.isWaiting_waiting, if_true]
    omega
  | answer i request outcome elapsed eventHex timestampNs hcall =>
    obtain ⟨hi, hget⟩ := List.getElem?_eq_some_iff.mp hcall
    have hwaits : 0 < st.calls.countP SendCall.isWaiting :=
      List.countP_pos_iff.mpr ⟨_, List.mem_of_getElem? hcall, rfl⟩
    simp only [answered, inFlight, hresult, List.length_set, List.countP_set hi, hget,
      SendCall.isWaiting_waiting, SendCall.isWaiting_returned, if_true]
    simp only [Bool.false_eq_true, if_false]
    omega
  | gather hstart hbatch hended =>
    simp only [gathered, inFlight, hresult]
    omega
  | raise error hcause =>
    simp only [inFlight, Option.isNone_none, Option.isNone_some, if_true, Bool.false_eq_true,
      if_false]
    omega
  | finish hstart =>
    simp only [inFlight, Option.isNone_none, Option.isNone_some, if_true, Bool.false_eq_true,
      if_false]
    omega

/-- Only so many steps can be taken: the loop ends. -/
theorem length_run_le (hsize : 0 < size) {labels : List ReplayStep}
    (hinv : st.Inv fmt target size payloads)
    (hrun : Machine.run (step codec fmt target size payloads) st labels = some st') :
    labels.length ≤ st.left payloads := by
  induction labels generalizing st with
  | nil => exact Nat.zero_le _
  | cons l labels ih =>
    obtain ⟨st₁, hstep, hrest⟩ := Machine.run_cons_eq_some.mp hrun
    have hless := left_lt_of_step hsize hinv.loop hstep
    have hle := ih (hinv.step hstep) hrest
    rw [List.length_cons]
    omega

/-- The step makes a call fail. -/
def Raises : ReplayStep → Prop
  | .raise _ _ => True
  | _ => False

/-- As long as there is no result, something can happen that makes no call fail. -/
theorem step_exists (hloop : st.Loop size payloads) (hresult : st.result = none) :
    ∃ l, ¬Raises l ∧ (st.step codec fmt target size payloads l).isSome := by
  have hopen : ¬st.result.isSome := by simp [hresult]
  by_cases hstart : payloads.length ≤ st.start
  · exact ⟨.finish, id, by simp [step, hresult, hstart]⟩
  by_cases hfull : st.calls.length = st.start + (batchFrom payloads size st.start).length
  · by_cases hended : ∀ call ∈ st.calls.drop st.start, call.isWaiting = false
    · refine ⟨.gather, id, ?_⟩
      simp only [step.eq_def, if_neg hopen]
      rw [if_pos ⟨by omega, hfull, hended⟩]
      rfl
    · -- a call of the batch waits, so it can be answered
      push Not at hended
      obtain ⟨call, hcall, hwaits⟩ := hended
      obtain ⟨request, rfl⟩ := SendCall.exists_waiting (by simpa using hwaits)
      obtain ⟨i, hi⟩ := List.mem_iff_getElem?.mp (List.mem_of_mem_drop hcall)
      exact ⟨.answer i (.error "") 0 "" 0, id, by simp [step, hresult, hi]⟩
  · -- a payload of the batch has not been sent
    have hplace : st.calls.length - st.start < (batchFrom payloads size st.start).length := by
      rw [length_batchFrom] at hfull ⊢
      have hlength := hloop.length_le
      have hlength' := hloop.length_le_start
      have hle := hloop.start_le
      omega
    refine ⟨.send "" "" 0, id, ?_⟩
    simp only [step.eq_def, if_neg hopen, List.getElem?_eq_getElem hplace]
    -- it is sent, or `send` raises
    split <;> rfl

/-- `send` can read the headers: there are none to speak of, or they are an object. -/
def HasHeaders (payload : Payload) : Prop :=
  (payload.getD "headers").truthy = false ∨ ∃ items, payload.getD "headers" = .dict items

/-- A payload whose headers are a dictionary can be sent. -/
theorem headers_ne_none {payload : Payload} (h : HasHeaders payload) (correlationId : String) :
    target.headers payload correlationId ≠ none := by
  unfold HttpTarget.headers
  split
  · simp
  next hdict =>
    rcases h with hfalse | ⟨items, hitems⟩
    · simp [hfalse]
    · exact absurd hitems (hdict items)

/-- A replay whose payloads have headers, and none of whose calls is made to fail, does not
raise. -/
theorem no_error_of_run {source : Recording} (hsource : requestsOf source.events ≠ [])
    (hheaders : ∀ payload ∈ payloads, HasHeaders payload) {labels : List ReplayStep}
    (hanswers : ∀ l ∈ labels, ¬Raises l)
    (hrun : Machine.run (step codec fmt target size payloads) (init source) labels = some st)
    (error : Error) : st.result ≠ some (.error error) := by
  have hstep : ∀ (s : HttpReplay) l s', (∀ error, s.result ≠ some (.error error)) → ¬Raises l →
      s.step codec fmt target size payloads l = some s' →
        ∀ error, s'.result ≠ some (.error error) := by
    intro s l s' hs hl hstep error
    obtain ⟨hresult, hstep⟩ := stepped_of_step hstep
    cases hstep with
    | raise error' hcause =>
      -- a call that is made to fail, or headers that cannot be read
      rcases hcause with ⟨i, rfl⟩ | ⟨payload, hmem, correlationId, hnone⟩
      · exact absurd trivial hl
      · exact absurd hnone (headers_ne_none (hheaders payload hmem) correlationId)
    | finish hstart => simp
    | send payload headers correlationHex eventHex timestampNs hplace hpayload hheaders =>
      exact hs error
    | answer i request outcome elapsed eventHex timestampNs hcall => exact hs error
    | gather hstart hlength hended => exact hs error
  have hinit : ∀ error, (init source).result ≠ some (.error error) := by
    intro error
    rw [init, if_neg hsource]
    simp
  exact Machine.invariant hstep hinit (Machine.along_of_mem hanswers) hrun error

/-! ### What is returned -/

/-- The pairs of calls that have returned, one after the other. -/
theorem getElem?_flatMap_events {calls : List SendCall} (h : ∀ call ∈ calls, call.isWaiting = false)
    (i : ℕ) : (calls.flatMap SendCall.events)[2 * i]? = calls[i]?.map SendCall.request ∧
      (calls.flatMap SendCall.events)[2 * i + 1]? = calls[i]?.bind SendCall.reply? := by
  induction calls generalizing i with
  | nil => simp
  | cons call calls ih =>
    obtain ⟨request, reply, rfl⟩ := SendCall.exists_returned (h call (by simp))
    have hcons : (SendCall.returned request reply :: calls).flatMap SendCall.events =
        request :: reply :: calls.flatMap SendCall.events := rfl
    rw [hcons]
    -- each call gives two events, so the later ones are two places on
    cases i with
    | zero => exact ⟨rfl, rfl⟩
    | succ i =>
      obtain ⟨hrequest, hreply⟩ := ih (fun c hc => h c (by simp [hc])) i
      refine ⟨?_, ?_⟩
      · rw [Nat.mul_add, List.getElem?_cons_succ, List.getElem?_cons_succ, hrequest,
          List.getElem?_cons_succ]
      · rw [Nat.mul_add, Nat.add_right_comm, List.getElem?_cons_succ, List.getElem?_cons_succ,
          hreply, List.getElem?_cons_succ]

/-- Each call that has returned gives two events. -/
theorem length_flatMap_events {calls : List SendCall} (h : ∀ call ∈ calls, call.isWaiting = false) :
    (calls.flatMap SendCall.events).length = 2 * calls.length := by
  induction calls with
  | nil => rfl
  | cons call calls ih =>
    obtain ⟨request, reply, rfl⟩ := SendCall.exists_returned (h call (by simp))
    rw [List.flatMap_cons, List.length_append, ih fun c hc => h c (by simp [hc]),
      List.length_cons]
    simp only [SendCall.events, SendCall.reply?, Option.toList_some, List.length_cons,
      List.length_nil]
    omega

/-- What the target has seen and what the caller gets when a replay of the payloads returns
`events`. -/
structure Returned (fmt : Value → String) (target : HttpTarget) (payloads : List Payload)
    (sent : List HttpTarget.Outgoing) (events : List Event) : Prop where
  /-- Every payload has been sent once. -/
  length_sent : sent.length = payloads.length
  length_events : events.length = 2 * payloads.length
  /-- The `i`-th request and the `i`-th pair are those of the `i`-th payload. -/
  pair : ∀ (i : ℕ) (payload : Payload), payloads[i]? = some payload →
    ∃ headers request reply, sent[i]? = some (target.outgoing fmt payload headers) ∧
      events[2 * i]? = some request ∧ events[2 * i + 1]? = some reply ∧
      target.headers payload request.correlationId = some headers ∧
      Sending.IsRequest target payload request ∧ Sending.IsReply target request reply ∧
      request.sequence < reply.sequence
  numbers : (events.map Event.sequence).Perm ((List.range (2 * payloads.length)).map Nat.cast)
  increasing : ∀ (i j : ℕ) (request request' : Event), i < j → events[2 * i]? = some request →
    events[2 * j]? = some request' → request.sequence < request'.sequence

/-- What a replay returns, read off the invariant of its last state. -/
theorem Inv.returned (h : st.Inv fmt target size payloads) {events : List Event}
    (hresult : st.result = some (.ok events)) :
    Returned fmt target payloads st.sent events := by
  obtain ⟨rfl, hlength, hended⟩ := h.loop.ended hresult
  have hcount : (st.calls.flatMap SendCall.events).length = 2 * payloads.length := by
    rw [length_flatMap_events hended, hlength]
  refine ⟨by rw [h.paired.length_sent, hlength], hcount, ?_, ?_, ?_⟩
  · intro i payload hpayload
    obtain ⟨hlt, -⟩ := List.getElem?_eq_some_iff.mp hpayload
    obtain ⟨call, hcall⟩ : ∃ call, st.calls[i]? = some call :=
      ⟨_, List.getElem?_eq_getElem (hlength ▸ hlt)⟩
    have hmem : call ∈ st.calls := List.mem_of_getElem? hcall
    obtain ⟨payload', headers, hpayload', hheaders, hsent, hrequest⟩ :=
      h.paired.request i call hcall
    obtain rfl : payload' = payload := Option.some.inj (hpayload'.symm.trans hpayload)
    obtain ⟨hfirst, hsecond⟩ := getElem?_flatMap_events hended i
    obtain ⟨request, reply, rfl⟩ := SendCall.exists_returned (hended call hmem)
    rw [hcall] at hfirst hsecond
    exact ⟨headers, request, reply, hsent, hfirst, hsecond, hheaders, hrequest,
      h.paired.reply request reply hmem, h.numbered.lt_reply request reply hmem⟩
  · -- as many numbers have been given as there are events
    have hperm := h.numbered.perm
    have hsequence : st.sequence = 2 * payloads.length := by
      have hlen := hperm.length_eq
      rw [List.length_map, List.length_map, List.length_range, hcount] at hlen
      exact hlen.symm
    rw [hsequence] at hperm
    exact hperm
  · intro i j request request' hij hi hj
    rw [(getElem?_flatMap_events hended _).1] at hi hj
    obtain ⟨call, hcall, rfl⟩ := Option.map_eq_some_iff.mp hi
    obtain ⟨call', hcall', rfl⟩ := Option.map_eq_some_iff.mp hj
    obtain ⟨hlt, rfl⟩ := List.getElem?_eq_some_iff.mp hcall
    obtain ⟨hlt', rfl⟩ := List.getElem?_eq_some_iff.mp hcall'
    have hincreasing := List.pairwise_iff_getElem.mp h.numbered.increasing i j (by simpa)
      (by simpa) hij
    simpa using hincreasing

/-- A batch takes at least one request, whatever the concurrency asked for. -/
theorem batchSize_pos (concurrency : ℤ) : 0 < batchSize concurrency := by
  rw [batchSize]
  omega

/-- **A replay over HTTP sends every request once and keeps their order.** For every source with a
request, every concurrency and every order in which the requests are answered, by a response or a
transport error: at any time at most one batch is in flight, a call starts when those of the
batches before have returned, and the replay returns in the end, with the pairs in the order of the
payloads and their numbers in order. -/
theorem replay_in_batches {source : Recording} (hsource : requestsOf source.events ≠ [])
    {supply : Supply} {subs : SubstitutionEngine}
    (hheaders : ∀ payload ∈ sentPayloads supply subs source, HasHeaders payload)
    {concurrency : ℤ} {labels : List ReplayStep} (hanswers : ∀ l ∈ labels, ¬Raises l)
    (hrun : Machine.run (step codec fmt target (batchSize concurrency)
      (sentPayloads supply subs source)) (init source) labels = some st) :
    st.inFlight ≤ batchSize concurrency ∧
      (∀ i j, i < st.calls.length → j / batchSize concurrency < i / batchSize concurrency →
        ∃ request reply, st.calls[j]? = some (.returned request reply)) ∧
      (∀ r, st.result = some r → ∃ events, r = .ok events ∧
        Returned fmt target (sentPayloads supply subs source) st.sent events) ∧
      (st.result = none → ∃ l, ¬Raises l ∧
        (st.step codec fmt target (batchSize concurrency) (sentPayloads supply subs source)
          l).isSome) ∧
      labels.length ≤ 3 * (requestsOf source.events).length + 1 := by
  have hinv := inv_run hsource hrun
  have hlength : (sentPayloads supply subs source).length = (requestsOf source.events).length := by
    rw [sentPayloads, SubstitutionEngine.length_applyAll, List.length_map]
  refine ⟨hinv.loop.inFlight_le, fun i j => hinv.loop.returned_of_div_lt, ?_,
    step_exists hinv.loop, ?_⟩
  · intro r hr
    cases r with
    | ok events => exact ⟨events, rfl, hinv.returned hr⟩
    | error error => exact absurd hr (no_error_of_run hsource hheaders hanswers hrun error)
  · -- each step uses up one of the steps that are left, three for each request
    have hle := length_run_le (batchSize_pos concurrency) (inv_init hsource) hrun
    have hleft : (init source).left (sentPayloads supply subs source) =
        3 * (requestsOf source.events).length + 1 := by
      rw [left, hlength, init, if_neg hsource]
      simp only [inFlight, List.length_nil, List.countP_nil, Option.isNone_none, if_true]
      omega
    omega

/-! ### The machine that knows no batches -/

/-- The correlation ids made up so far. -/
def correlationIds (st : HttpReplay) : List String :=
  st.calls.map fun call => call.request.correlationId

/-- The two machines have made the same events. -/
structure Refines (st : HttpReplay) (sd : Sending) : Prop where
  sequence : sd.sequence = st.sequence
  requests : sd.requests = st.calls.map SendCall.request
  replies : ∀ i, sd.replies.get? i = st.calls[i]?.bind SendCall.reply?

/-- The batched replay and the sequential sending start alike. -/
theorem refines_init (source : Recording) : (init source).Refines {} where
  sequence := rfl
  requests := rfl
  replies _ := rfl

/-- When a call starts, the batches before its own are done. -/
theorem Refines.batchOpen {sd : Sending} (h : st.Refines sd) (hloop : st.Loop size payloads)
    (hstart : st.start ≤ st.calls.length) (hplace : st.calls.length - st.start < size) :
    sd.BatchOpen size sd.requests.length := by
  intro j hj
  obtain ⟨k, hk⟩ := hloop.dvd_start
  have hdiv : st.calls.length / size = k :=
    Nat.div_eq_of_lt_le (by rw [Nat.mul_comm]; omega) (by rw [Nat.add_mul, Nat.mul_comm]; omega)
  rw [h.requests, List.length_map, hdiv, Nat.mul_comm, ← hk] at hj
  obtain ⟨call, hcall⟩ : ∃ call, st.calls[j]? = some call :=
    ⟨_, List.getElem?_eq_getElem (hj.trans_le hstart)⟩
  obtain ⟨request, reply, rfl⟩ := SendCall.exists_returned (hloop.returned_of_lt hj hcall)
  apply Dict.mem_keys_of_get?_eq_some (v := reply)
  rw [h.replies, hcall]
  rfl

/-- A step of the replay is a step of the machine without batches, or none. -/
theorem Refines.step {l : ReplayStep} {sd : Sending} (h : st.Refines sd)
    (hloop : st.Loop size payloads) (hids : st'.correlationIds.Nodup)
    (hstep : Stepped codec fmt target size payloads st l st') :
    ∃ ls sd', Machine.run (Sending.step codec target size payloads) sd ls = some sd' ∧
      st'.Refines sd' := by
  cases hstep with
  | send payload headers correlationHex eventHex timestampNs hplace hpayload hheaders =>
    -- as many calls as requests have been started: both take the same payload next
    have hstart := hloop.start_le_length hpayload
    have hnext : payloads[sd.requests.length]? = some payload := by
      rw [h.requests, List.length_map, ← hpayload]
      congr 1
      omega
    have hnew : newId "corr" correlationHex ∉ sd.requests.map Event.correlationId := by
      rw [correlationIds, sending, List.map_append, List.map_singleton,
        List.nodup_append_singleton] at hids
      rw [h.requests, List.map_map]
      exact hids.2
    refine ⟨[.start correlationHex eventHex timestampNs],
      sd.started target payload headers (newId "corr" correlationHex) eventHex timestampNs, ?_, ?_⟩
    · rw [Machine.run, Sending.step, hnext]
      simp only
      rw [if_pos ⟨h.batchOpen hloop hstart hplace, hnew⟩, hheaders]
      rfl
    · refine ⟨?_, ?_, fun i => ?_⟩
      · simp [Sending.started, sending, h.sequence]
      · simp only [Sending.started, sending, List.map_append, List.map_singleton, h.requests,
          h.sequence, SendCall.request_waiting]
      · simp only [Sending.started, sending, h.replies, List.getElem?_append]
        split_ifs with hlt
        · rfl
        · -- the new call has no reply, nor has a place beyond
          rw [List.getElem?_eq_none (by omega), List.getElem?_singleton]
          split_ifs <;> rfl
  | answer i request outcome elapsed eventHex timestampNs hcall =>
    have hrequest : sd.requests[i]? = some request := by
      rw [h.requests, List.getElem?_map, hcall]
      rfl
    -- the call is waiting, so it has no reply
    have hopen : i ∉ sd.replies.keys := by
      rw [← Dict.get?_eq_none_iff, h.replies, hcall]
      rfl
    obtain ⟨hi, -⟩ := List.getElem?_eq_some_iff.mp hcall
    refine ⟨[.finish i outcome elapsed eventHex timestampNs],
      sd.answered codec target i request outcome elapsed eventHex timestampNs, ?_, ?_⟩
    · rw [Machine.run, Sending.step, hrequest]
      simp only
      rw [if_neg hopen]
      rfl
    · refine ⟨?_, ?_, fun j => ?_⟩
      · simp [Sending.answered, answered, h.sequence]
      · simp only [Sending.answered, answered, h.requests, List.map_set, SendCall.request_returned]
      · simp only [Sending.answered, answered, Dict.get?_set, h.replies, h.sequence,
          List.getElem?_set]
        split_ifs with hij
        · rfl
        · rfl
  -- the machine without batches knows nothing of the rest
  | gather hstart hlength hended =>
    exact ⟨[], sd, rfl, h.sequence, h.requests, h.replies⟩
  | raise error hcause => exact ⟨[], sd, rfl, h.sequence, h.requests, h.replies⟩
  | finish hstart => exact ⟨[], sd, rfl, h.sequence, h.requests, h.replies⟩

/-- The ids made up so far stay. -/
theorem correlationIds_isPrefix {l : ReplayStep}
    (hstep : Stepped codec fmt target size payloads st l st') :
    st.correlationIds <+: st'.correlationIds := by
  cases hstep with
  | send payload headers correlationHex eventHex timestampNs hplace hpayload hheaders =>
    rw [correlationIds, correlationIds, sending, List.map_append]
    exact List.prefix_append _ _
  | answer i request outcome elapsed eventHex timestampNs hcall =>
    have hkeep : (st.answered codec target i request outcome elapsed eventHex
        timestampNs).correlationIds = st.correlationIds :=
      List.map_set_of_eq hcall rfl
    exact hkeep ▸ List.prefix_refl _
  | gather hstart hlength hended => exact List.prefix_refl _
  | raise error hcause => exact List.prefix_refl _
  | finish hstart => exact List.prefix_refl _

/-- **The batches are one way to meet the order of the sends.** A run in which no two correlation
ids made up are the same is, in the requests and replies it makes, a run of the machine without
batches. -/
theorem exists_sending {source : Recording} (hsource : requestsOf source.events ≠ [])
    {labels : List ReplayStep}
    (hrun : Machine.run (HttpReplay.step codec fmt target size payloads) (init source) labels =
      some st) (hids : st.correlationIds.Nodup) :
    ∃ ls sd, Machine.run (Sending.step codec target size payloads) {} ls = some sd ∧
      st.Refines sd := by
  -- the correlation ids only grow, so they were distinct all along
  have hback : ∀ (s : HttpReplay) l s', s.step codec fmt target size payloads l = some s' →
      s'.correlationIds.Nodup → s.correlationIds.Nodup := by
    intro s l s' hstep hnd
    obtain ⟨-, hstep⟩ := stepped_of_step hstep
    exact hnd.sublist (correlationIds_isPrefix hstep).sublist
  have hsim : ∀ (s : HttpReplay) l s' t, s.Loop size payloads ∧ s.Refines t →
      s'.correlationIds.Nodup → s.step codec fmt target size payloads l = some s' →
      ∃ ls t', Machine.run (Sending.step codec target size payloads) t ls = some t' ∧
        s'.Loop size payloads ∧ s'.Refines t' := by
    intro s l s' t hR hnd hstep
    obtain ⟨hresult, hstep⟩ := stepped_of_step hstep
    obtain ⟨ls, t', hls, hrefines⟩ := hR.2.step hR.1 hnd hstep
    exact ⟨ls, t', hls, hR.1.step hresult hstep, hrefines⟩
  obtain ⟨ls, sd, hsd, -, hrefines⟩ :=
    Machine.simulates hback hsim ⟨loop_init source hsource, refines_init source⟩ hids hrun
  exact ⟨ls, sd, hsd, hrefines⟩

/-- The machine without batches gives the list that is returned. -/
theorem Refines.events {sd : Sending} (h : st.Refines sd) :
    sd.events = st.calls.flatMap SendCall.events := by
  rw [Sending.events, h.requests, List.zipIdx_map, List.flatMap_map]
  conv_rhs => rw [← List.zipIdx_map_fst 0 st.calls, List.flatMap_map]
  refine List.flatMap_congr fun p hp => ?_
  rw [SendCall.events]
  simp only [Prod.map]
  rw [id, h.replies, List.mem_zipIdx_iff_getElem?.mp hp]
  rfl

/-- When the batched replay returns, the sequential sending is done, with the same events. -/
theorem Refines.of_returned {sd : Sending} (h : st.Refines sd)
    (hinv : st.Inv fmt target size payloads) {events : List Event}
    (hresult : st.result = some (.ok events)) : sd.Done payloads ∧ sd.events = events := by
  obtain ⟨rfl, hlength, hended⟩ := hinv.loop.ended hresult
  refine ⟨fun i hi => ?_, h.events⟩
  obtain ⟨call, hcall⟩ : ∃ call, st.calls[i]? = some call :=
    ⟨_, List.getElem?_eq_getElem (hlength ▸ hi)⟩
  obtain ⟨request, reply, rfl⟩ := SendCall.exists_returned
    (hended call (List.mem_of_getElem? hcall))
  apply Dict.mem_keys_of_get?_eq_some (v := reply)
  rw [h.replies, hcall]
  rfl

/-! ### Three requests, two at a time -/

/-- The target that is replayed against. -/
def shopTarget : HttpTarget := .open "http://shop" "rpl_1" "shop"

/-- A supply that is not asked. -/
def emptySupply : Supply := ⟨fun _ => "", fun _ => "", fun _ => 0⟩

/-- A source of three requests. -/
def threeRequests : Recording where
  recordingId := "rec_1"
  status := .completed
  events := [.brief .httpRequest "evt_a" "corr_a" 0, .brief .httpRequest "evt_b" "corr_b" 1,
    .brief .httpRequest "evt_c" "corr_c" 2]

/-- The second request is answered before the first. -/
def threeSteps : List ReplayStep :=
  [.send "1" "1" 10, .send "2" "2" 11, .answer 1 (.error "ConnectError: refused") 5 "3" 16,
    .answer 0 (.error "ReadTimeout: ") 9 "4" 19, .gather, .send "3" "5" 20,
    .answer 2 (.error "ReadTimeout: ") 9 "6" 29, .gather, .finish]

/-- The replay of a source, two requests at a time, after some steps. -/
def afterSteps (source : Recording) (labels : List ReplayStep) : HttpReplay :=
  (Machine.run (step sampleCodec (fun _ => "") shopTarget (batchSize 2)
    (sentPayloads emptySupply (.create emptySupply [] .off) source)) (init source) labels).getD {}

theorem run_threeSteps :
    Machine.run (step sampleCodec (fun _ => "") shopTarget (batchSize 2)
      (sentPayloads emptySupply (.create emptySupply [] .off) threeRequests)) (init threeRequests)
        threeSteps = some (afterSteps threeRequests threeSteps) := rfl

theorem replay_in_batches_three :
    ∃ events, (afterSteps threeRequests threeSteps).result = some (.ok events) ∧
      Returned (fun _ => "") shopTarget
        (sentPayloads emptySupply (.create emptySupply [] .off) threeRequests)
        (afterSteps threeRequests threeSteps).sent events := by
  have hheaders : ∀ payload ∈
      sentPayloads emptySupply (.create emptySupply [] .off) threeRequests,
        HasHeaders payload := by
    intro payload hmem
    have hempty : payload ∈ List.replicate 3 Payload.empty := hmem
    obtain rfl : payload = .empty := List.eq_of_mem_replicate hempty
    exact .inl rfl
  have hresult : ∃ r, (afterSteps threeRequests threeSteps).result = some r := ⟨_, rfl⟩
  obtain ⟨r, hr⟩ := hresult
  obtain ⟨-, -, hreturned, -⟩ := replay_in_batches (by decide) hheaders
    (by simp [threeSteps, Raises]) run_threeSteps
  obtain ⟨events, rfl, hevents⟩ := hreturned r hr
  exact ⟨events, hr, hevents⟩

/-- A source whose request has a text for its headers. -/
def textHeaders : Recording where
  recordingId := "rec_1"
  status := .completed
  events := [{ Event.brief .httpRequest "evt_a" "corr_a" 0 with
    payload := .ofEntries [("headers", .ofString "x")] (by decide) }]

/-- Reading the headers of such a request raises, and nothing is sent. -/
theorem not_replay_in_batches_text :
    ¬∀ (codec : Codec) (fmt : Value → String) (target : HttpTarget) (source : Recording)
      (supply : Supply) (subs : SubstitutionEngine) (concurrency : ℤ) (labels : List ReplayStep)
      (st : HttpReplay), requestsOf source.events ≠ [] → (∀ l ∈ labels, ¬Raises l) →
      Machine.run (step codec fmt target (batchSize concurrency)
        (sentPayloads supply subs source)) (init source) labels = some st →
      ∀ r, st.result = some r → ∃ events, r = .ok events ∧
        Returned fmt target (sentPayloads supply subs source) st.sent events := by
  intro h
  obtain ⟨events, hevents, -⟩ := h sampleCodec (fun _ => "") shopTarget textHeaders emptySupply
    (.create emptySupply [] .off) 2 [.send "1" "1" 10]
    (afterSteps textHeaders [.send "1" "1" 10]) (by decide) (by simp [Raises]) rfl _ rfl
  cases hevents

end HttpReplay

end InfraReplay
