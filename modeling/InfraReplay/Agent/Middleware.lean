import InfraReplay.Common.Machine
import InfraReplay.Plugins.PostgresCapture
import InfraReplay.Replay.HttpTarget

/-!
# The agent inside the application

`CaptureMiddleware` binds the capture context of a request and flushes the agent before the final
message of its response goes out; `CaptureAgent.flush` drains the one queue all requests share and
posts what it took, one batch for each recording. The event loop switches between requests only
where one of them waits: for a post to be answered, or for a message to be sent. So a drain and a
statement are one step each, and a flush is a drain followed by a post and its answer for every
batch.

A step is one of these, for any request. Whether a batch can be posted is a parameter: it has to be
encoded as JSON, and httpx has to take the URL its recording id is formatted into.
-/

namespace InfraReplay

open Python

/-- The context `__call__` binds for a request, if it binds one. -/
def captureContext (scopeType : String) (headers : Headers) : Option CaptureContext :=
  if scopeType ≠ "http" then none
  else
    let headers := Dict.ofPairs (headers.map fun p => (lower p.1, p.2))
    match headers.get? recordingHeader with
    | none => none
    | some recordingId =>
      if recordingId = "" then none
      else some ⟨recordingId, (headers.get? correlationHeader).getD recordingId⟩

/-- A message an application sends. -/
structure Message where
  type : String
  moreBody : Bool := false
  deriving DecidableEq

/-- The message after which the response is complete. -/
def Message.isFinal (m : Message) : Bool := m.type == "http.response.body" && !m.moreBody

/-- A flush between its drain and its end, and the message that waits for it. -/
structure Flush where
  message : Message
  /-- The batch whose post is unanswered. -/
  posting : Option (String × List Event) := none
  /-- The batches not yet posted. -/
  batches : Dict String (List Event)

/-- The events a flush has taken and whose post is not answered. -/
def Flush.events (f : Flush) : List Event := (f.posting.toList ++ f.batches).flatMap Prod.snd

/-- A request inside the middleware. -/
structure Call where
  context : Option CaptureContext
  flush : Option Flush := none
  /-- The messages that went out. -/
  sent : List Message := []
  /-- Every event queued in its context so far. -/
  queued : List Event := []

/-- The events that the flush of a call holds. -/
def Call.held (call : Call) : List Event := call.flush.toList.flatMap Flush.events

/-- A call of `client.post`. -/
structure Post where
  /-- The request whose flush it belongs to. -/
  call : ℕ
  recordingId : String
  events : List Event

/-- The agent, its plugin, and the requests of the application in the order they came in. -/
structure CaptureAgent where
  plugin : PostgresCapturePlugin
  calls : List Call := []
  /-- Every post so far. -/
  posts : List Post := []
  /-- The events of the posts that the ingest endpoint has accepted. -/
  acknowledged : List Event := []

/-- What happens next. -/
inductive AgentStep where
  /-- A request comes in. -/
  | request (scopeType : String) (headers : Headers)
  /-- A request has executed a statement. -/
  | statement (i : ℕ) (s : Statement)
  /-- The application sends a message of its response. -/
  | send (i : ℕ) (message : Message)
  /-- The flush of a request posts its next batch. -/
  | post (i : ℕ)
  /-- The post gets an answer. -/
  | answered (i : ℕ) (accepted : Bool)
  /-- The post ends in an `HTTPError`. -/
  | failed (i : ℕ)
  /-- The final message of a request goes out after its flush. -/
  | forward (i : ℕ)

namespace CaptureAgent

/-- The agent of a service after `start`. -/
def start (service : String) : CaptureAgent where
  plugin := { service := service }

/-- The document a batch is posted as. -/
def batchDocument (events : List Event) : Value := .list (events.map fun e => .dict e.dump)

section Step

variable (ag : CaptureAgent) (i : ℕ) (call : Call)

/-- The `i`-th request goes on as `call`. -/
def setCall : CaptureAgent := { ag with calls := ag.calls.set i call }

/-- `_after` in the context of a request. -/
def ran (s : Statement) : CaptureAgent :=
  { ag.setCall i { call with queued := call.queued ++ ag.plugin.captured s call.context } with
    plugin := ag.plugin.after s call.context }

/-- A message goes out. -/
def passed (message : Message) : CaptureAgent :=
  ag.setCall i { call with flush := none, sent := call.sent ++ [message] }

/-- `_drain`, and the grouping of what it took. -/
def drained (message : Message) : CaptureAgent :=
  { ag.setCall i { call with
      flush := some
        { message := message, batches := Dict.collect Event.recordingId ag.plugin.queue } } with
    plugin := { ag.plugin with queue := [] } }

/-- The post of a batch goes out. -/
def posted (f : Flush) (recordingId : String) (batch : List Event)
    (rest : Dict String (List Event)) : CaptureAgent :=
  { ag.setCall i { call with
      flush := some { f with posting := some (recordingId, batch), batches := rest } } with
    posts := ag.posts ++ [⟨i, recordingId, batch⟩] }

/-- The flush goes on after an answer; it does not look at the status. -/
def settled (f : Flush) (batch : List Event) (accepted : Bool) : CaptureAgent :=
  { ag.setCall i { call with flush := some { f with posting := none } } with
    acknowledged := ag.acknowledged ++ if accepted then batch else [] }

/-- The flush gives up what it holds. -/
def gaveUp (f : Flush) : CaptureAgent :=
  ag.setCall i { call with flush := some { f with posting := none, batches := [] } }

/-- The exception of an encoder leaves `flushing_send`, and the message is not sent. -/
def raised : CaptureAgent := ag.setCall i { call with flush := none }

end Step

/-- One step; `none` when the label names nothing that can happen. -/
def step (encodes : Value → Bool) (ag : CaptureAgent) : AgentStep → Option CaptureAgent
  | .request scopeType headers =>
    some { ag with calls := ag.calls ++ [{ context := captureContext scopeType headers }] }
  | .statement i s => ag.calls[i]?.map fun call => ag.ran i call s
  | .send i message =>
    match ag.calls[i]? with
    | some call@{ flush := none, .. } =>
      -- an unbound request is handed the server's own `send`
      if message.isFinal && call.context.isSome then some (ag.drained i call message)
      else some (ag.passed i call message)
    | _ => none
  | .post i =>
    match ag.calls[i]? with
    | some call@{ flush := some f@{ posting := none, batches := (recordingId, batch) :: rest, .. },
        .. } =>
      if encodes (batchDocument batch) then some (ag.posted i call f recordingId batch rest)
      else some (ag.raised i call)
    | _ => none
  | .answered i accepted =>
    match ag.calls[i]? with
    | some call@{ flush := some f@{ posting := some (_, batch), .. }, .. } =>
      some (ag.settled i call f batch accepted)
    | _ => none
  | .failed i =>
    match ag.calls[i]? with
    | some call@{ flush := some f@{ posting := some _, .. }, .. } => some (ag.gaveUp i call f)
    | _ => none
  | .forward i =>
    match ag.calls[i]? with
    | some call@{ flush := some { posting := none, batches := [], message, .. }, .. } =>
      some (ag.passed i call message)
    | _ => none

/-! ### What a step does -/

/-- The outcomes of a step, by what it meets. -/
inductive Next (encodes : Value → Bool) (ag : CaptureAgent) : AgentStep → CaptureAgent → Prop where
  | request (scopeType : String) (headers : Headers) :
    Next encodes ag (.request scopeType headers)
      { ag with calls := ag.calls ++ [{ context := captureContext scopeType headers }] }
  | statement {i : ℕ} {call : Call} (s : Statement) (hcall : ag.calls[i]? = some call) :
    Next encodes ag (.statement i s) (ag.ran i call s)
  | drained {i : ℕ} {call : Call} {message : Message} (hcall : ag.calls[i]? = some call)
      (hflush : call.flush = none) (hfinal : message.isFinal = true)
      (hbound : call.context.isSome = true) :
    Next encodes ag (.send i message) (ag.drained i call message)
  | passed {i : ℕ} {call : Call} {message : Message} (hcall : ag.calls[i]? = some call)
      (hflush : call.flush = none) (hplain : (message.isFinal && call.context.isSome) = false) :
    Next encodes ag (.send i message) (ag.passed i call message)
  | posted {i : ℕ} {call : Call} {f : Flush} {recordingId : String} {batch : List Event}
      {rest : Dict String (List Event)} (hcall : ag.calls[i]? = some call)
      (hflush : call.flush = some f) (hposting : f.posting = none)
      (hbatches : f.batches = (recordingId, batch) :: rest)
      (hencodes : encodes (batchDocument batch) = true) :
    Next encodes ag (.post i) (ag.posted i call f recordingId batch rest)
  | raised {i : ℕ} {call : Call} {f : Flush} {recordingId : String} {batch : List Event}
      {rest : Dict String (List Event)} (hcall : ag.calls[i]? = some call)
      (hflush : call.flush = some f) (hposting : f.posting = none)
      (hbatches : f.batches = (recordingId, batch) :: rest)
      (hencodes : encodes (batchDocument batch) = false) :
    Next encodes ag (.post i) (ag.raised i call)
  | settled {i : ℕ} {call : Call} {f : Flush} {recordingId : String} {batch : List Event}
      {accepted : Bool} (hcall : ag.calls[i]? = some call) (hflush : call.flush = some f)
      (hposting : f.posting = some (recordingId, batch)) :
    Next encodes ag (.answered i accepted) (ag.settled i call f batch accepted)
  | gaveUp {i : ℕ} {call : Call} {f : Flush} {recordingId : String} {batch : List Event}
      (hcall : ag.calls[i]? = some call) (hflush : call.flush = some f)
      (hposting : f.posting = some (recordingId, batch)) :
    Next encodes ag (.failed i) (ag.gaveUp i call f)
  | forwarded {i : ℕ} {call : Call} {f : Flush} (hcall : ag.calls[i]? = some call)
      (hflush : call.flush = some f) (hposting : f.posting = none) (hbatches : f.batches = []) :
    Next encodes ag (.forward i) (ag.passed i call f.message)

/-- What a step does. -/
theorem next_of_step {encodes : Value → Bool} {ag ag' : CaptureAgent} {l : AgentStep}
    (h : ag.step encodes l = some ag') : Next encodes ag l ag' := by
  cases l with
  | request scopeType headers =>
    obtain rfl := Option.some.inj h
    exact .request scopeType headers
  | statement i s =>
    obtain ⟨call, hcall, rfl⟩ := Option.map_eq_some_iff.mp h
    exact .statement s hcall
  | send i message =>
    simp only [step] at h
    split at h
    case h_1 hcall =>
      -- only the final message of a bound request waits for a flush
      split_ifs at h with hfinal
      · obtain rfl := Option.some.inj h
        rw [Bool.and_eq_true] at hfinal
        exact .drained hcall rfl hfinal.1 hfinal.2
      · obtain rfl := Option.some.inj h
        exact .passed hcall rfl (Bool.eq_false_iff.mpr hfinal)
    case h_2 => cases h
  | post i =>
    simp only [step] at h
    split at h
    case h_1 hcall =>
      -- encoding happens before anything is sent, and outside the `except httpx.HTTPError`
      split_ifs at h with hencodes
      · obtain rfl := Option.some.inj h
        exact .posted hcall rfl rfl rfl hencodes
      · obtain rfl := Option.some.inj h
        exact .raised hcall rfl rfl rfl (Bool.eq_false_iff.mpr hencodes)
    case h_2 => cases h
  | answered i accepted =>
    simp only [step] at h
    split at h
    case h_1 hcall =>
      obtain rfl := Option.some.inj h
      exact .settled hcall rfl rfl
    case h_2 => cases h
  | failed i =>
    simp only [step] at h
    split at h
    case h_1 hcall =>
      obtain rfl := Option.some.inj h
      exact .gaveUp hcall rfl rfl
    case h_2 => cases h
  | forward i =>
    simp only [step] at h
    split at h
    case h_1 hcall =>
      obtain rfl := Option.some.inj h
      exact .forwarded hcall rfl rfl rfl
    case h_2 => cases h

end CaptureAgent

end InfraReplay
