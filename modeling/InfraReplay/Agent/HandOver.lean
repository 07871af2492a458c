import InfraReplay.Agent.Isolation
import InfraReplay.Capture.Forwarding
import InfraReplay.Replay.HttpRun

/-!
# From the client's request to the SQL it causes

A capture proxy and a replay client write the recording and the correlation id into two headers;
the middleware of the instrumented application reads them and binds them; the SQL listener stamps
what it captures with what is bound. Each of the three is a few lines of its own file.

`sql_joins_request` is what they add up to, over every run of the application with its API: the SQL
that is stored carries the ids of the `http.request` event that the proxy or the client made of the
request in which the statement ran.
-/

namespace InfraReplay

open Python

/-! ### The context that is bound -/

/-- A context is bound for HTTP only. -/
theorem eq_http_of_captureContext {scopeType : String} {headers : Headers}
    (h : captureContext scopeType headers ≠ none) : scopeType = "http" := by
  by_contra hne
  rw [captureContext, if_pos hne] at h
  exact h rfl

/-- Names in lower case, none of them twice: what is bound is what the two headers say. -/
theorem captureContext_eq {headers : Headers} (hlower : ∀ p ∈ headers, lower p.1 = p.1)
    (hnd : (headers.map Prod.fst).Nodup) {recordingId correlationId : String}
    (hrecording : Dict.get? headers recordingHeader = some recordingId)
    (hcorrelation : Dict.get? headers correlationHeader = some correlationId)
    (hne : recordingId ≠ "") :
    captureContext "http" headers = some ⟨recordingId, correlationId⟩ := by
  have hsame : (headers.map fun p => (lower p.1, p.2)) = headers := by
    refine (List.map_congr_left fun p hp => ?_).trans (List.map_id headers)
    rw [hlower p hp]
    rfl
  have hdict : Dict.ofPairs (headers.map fun p => (lower p.1, p.2)) = headers := by
    rw [hsame, Dict.ofPairs_eq_self hnd]
  unfold captureContext
  rw [if_neg (by decide)]
  dsimp only
  rw [hdict, hrecording]
  simp only [if_neg hne, hcorrelation, Option.getD_some]

theorem lower_recordingHeader : lower recordingHeader = recordingHeader := by decide

theorem lower_correlationHeader : lower correlationHeader = correlationHeader := by decide

/-- A header in lower case among others in lower case. -/
theorem lower_set {ν : Type} {headers : Dict String ν} (h : ∀ p ∈ headers, lower p.1 = p.1)
    {name : String} (hname : lower name = name) (v : ν) :
    ∀ p ∈ headers.set name v, lower p.1 = p.1 := by
  intro p hp
  rcases Dict.mem_set hp with rfl | hp
  · exact hname
  · exact h p hp

/-- What the application binds for a request that comes through the proxy. -/
theorem captureContext_forward {client : HttpClient} {proxy : UpstreamProxy} {x : Exchange}
    {out : SentRequest} (hsent : proxy.forward client x = some out)
    (hnamed : proxy.recordingId ≠ "") (hlower : ∀ p ∈ x.request.headers, lower p.1 = p.1) :
    captureContext "http" out.headers = some ⟨proxy.recordingId, x.correlationId⟩ := by
  obtain ⟨-, -, hout⟩ := HttpClient.send_eq_some.mp hsent
  have hkept : ∀ p ∈ Dict.ofPairs (keptHeaders x.request.headers), lower p.1 = p.1 := fun p hp =>
    hlower p (List.mem_of_mem_filter (Dict.mem_of_mem_ofPairs hp))
  rw [hout]
  exact captureContext_eq
    (lower_set (lower_set hkept lower_correlationHeader _) lower_recordingHeader _)
    UpstreamProxy.nodup_headers_asked UpstreamProxy.get?_recordingHeader_asked
    UpstreamProxy.get?_correlationHeader_asked hnamed

namespace HttpTarget

variable {target : HttpTarget} {payload headers : Payload} {correlationId : String}

/-- The headers go out as the strings they are. -/
def SentAs (headers : Payload) (wire : Headers) : Prop :=
  headers.items = wire.map fun p => (p.1, .str p.2)

/-- What the application binds for a request that the replay client sends. -/
theorem captureContext_sent {wire : Headers} (hnamed : target.recordingId ≠ "")
    (hlower : ∀ items, payload.getD "headers" = .dict items → ∀ p ∈ items, lower p.1 = p.1)
    (h : target.headers payload correlationId = some headers) (hwire : SentAs headers wire) :
    captureContext "http" wire = some ⟨target.recordingId, correlationId⟩ := by
  obtain ⟨kept, hnd, hitems, hfrom⟩ := exists_kept h
  have hkept : ∀ p ∈ kept, lower p.1 = p.1 := by
    intro p hp
    obtain ⟨items, hdict, hp⟩ := hfrom p hp
    exact hlower items hdict p hp
  have hget : ∀ k v, headers.get? k = some (.str v) → Dict.get? wire k = some v := by
    intro k v hv
    rw [Payload.get?, hwire, Dict.get?_map fun (_ : String) v => Value.str v] at hv
    obtain ⟨v', hv', heq⟩ := Option.map_eq_some_iff.mp hv
    rw [hv', Value.str.inj heq]
  -- the wire keeps the names in their order, so they stay lower case and distinct
  have hnames : wire.map Prod.fst = headers.items.map Prod.fst := by
    rw [hwire, List.map_map]
    rfl
  have hset := lower_set (lower_set hkept lower_recordingHeader (.str target.recordingId))
    lower_correlationHeader (.str correlationId)
  rw [← hitems] at hset
  refine captureContext_eq (fun p hp => ?_) ?_ (hget _ _ ?_) (hget _ _ ?_) hnamed
  · have hmem : (p.1, Value.str p.2) ∈ headers.items := by
      rw [hwire]
      exact List.mem_map_of_mem (f := fun p : String × String => (p.1, Value.str p.2)) hp
    exact hset (p.1, .str p.2) hmem
  · rw [hnames, hitems]
    exact Dict.nodup_keys_set (Dict.nodup_keys_set hnd _ _) _ _
  · rw [Payload.get?, hitems, Dict.get?_set, if_neg (by decide), Dict.get?_set, if_pos rfl]
  · rw [Payload.get?, hitems, Dict.get?_set, if_pos rfl]

end HttpTarget

/-! ### The requests of an application -/

/-- The header list is that of a request from a capture proxy or a replay client, and the event is
the `http.request` event that was made of it. -/
inductive FromSender : Headers → Event → Prop
  /-- A client's request through a proxy, with its header names as the server hands them over. -/
  | proxied {client : HttpClient} {proxy : UpstreamProxy} {x : Exchange} {out : SentRequest}
      (sequence : ℤ) (hsent : proxy.forward client x = some out) (hnamed : proxy.recordingId ≠ "")
      (hlower : ∀ p ∈ x.request.headers, lower p.1 = p.1) :
      FromSender out.headers (proxy.requestEvent x sequence)
  /-- A recorded request that is sent again. -/
  | replayed {target : HttpTarget} {payload headers : Payload} {wire : Headers}
      {correlationId : String} (eventHex : String) (sequence timestampNs : ℤ)
      (hnamed : target.recordingId ≠ "")
      (hlower : ∀ items, payload.getD "headers" = .dict items → ∀ p ∈ items, lower p.1 = p.1)
      (hheaders : target.headers payload correlationId = some headers)
      (hwire : HttpTarget.SentAs headers wire) :
      FromSender wire (target.event .httpRequest (HttpTarget.requestPayload payload headers)
        correlationId eventHex sequence timestampNs 0 none)

/-- What is bound for such a request are the ids of its event. -/
theorem FromSender.captureContext_eq {headers : Headers} {e : Event}
    (h : FromSender headers e) :
    captureContext "http" headers = some ⟨e.recordingId, e.correlationId⟩ := by
  cases h with
  | proxied sequence hsent hnamed hlower => exact captureContext_forward hsent hnamed hlower
  | replayed eventHex sequence timestampNs hnamed hlower hheaders hwire =>
    exact HttpTarget.captureContext_sent hnamed hlower hheaders hwire

namespace CapturedApp

variable {httpPath : String → Option String} {encodes : Value → Bool} {order : RowOrder}
  {c c' : CapturedApp} {steps : List CapturedStep}

/-- The contexts of the requests are those of the header lists they came in with. -/
def ContextsFrom (steps : List CapturedStep) (c : CapturedApp) : Prop :=
  ∀ call ∈ c.agent.calls, ∃ scopeType headers,
    CapturedStep.app (.request scopeType headers) ∈ steps ∧
      call.context = captureContext scopeType headers

/-- A step keeps the contexts, and binds that of a request that comes in. -/
theorem ContextsFrom.step {l : CapturedStep} (h : c.ContextsFrom steps) (hl : l ∈ steps)
    (hstep : c.step httpPath encodes order l = some c') : c'.ContextsFrom steps := by
  cases l with
  | app l =>
    obtain ⟨agent, hagent, rfl⟩ := Option.map_eq_some_iff.mp hstep
    intro call' hcall'
    -- a call keeps its context; only a new call takes one, from its own headers
    rcases CaptureAgent.context_of_step hagent hcall' with ⟨call, hcall, hcontext⟩ |
      ⟨scopeType, headers, rfl, hcontext⟩
    · rw [hcontext]
      exact h call hcall
    · exact ⟨scopeType, headers, hl, hcontext⟩
  | arrive k =>
    -- the remaining steps make no call
    obtain ⟨p, -, hstep⟩ := Option.bind_eq_some_iff.mp hstep
    obtain ⟨recordingId, -, rfl⟩ := Option.map_eq_some_iff.mp hstep
    exact h
  | pump recordingId events =>
    simp only [CapturedApp.step] at hstep
    split_ifs at hstep
    obtain rfl := Option.some.inj hstep
    exact h
  | appender i =>
    obtain ⟨task, -, hstep⟩ := Option.bind_eq_some_iff.mp hstep
    obtain ⟨r, -, rfl⟩ := Option.map_eq_some_iff.mp hstep
    exact h
  | finish recordingId =>
    obtain rfl := Option.some.inj hstep
    exact h
  | finisher i =>
    obtain ⟨task, -, hstep⟩ := Option.bind_eq_some_iff.mp hstep
    obtain ⟨r, -, rfl⟩ := Option.map_eq_some_iff.mp hstep
    exact h

/-- **SQL joins the request that caused it.** In every run of an instrumented application with the
API, where the requests that carry a recording id come from capture proxies and replay clients, and
their ids survive the URL of a post, as those do that `new_id` makes (`survives_newId`): a stored
SQL event has the recording and the correlation id of the `http.request` event that the proxy or the
client made of a request the application got. -/
theorem sql_joins_request (hstart : c.Starting)
    (hfrom : ∀ scopeType headers, CapturedStep.app (.request scopeType headers) ∈ steps →
      captureContext scopeType headers ≠ none →
        ∃ e, FromSender headers e ∧ Survives httpPath e.recordingId)
    (hrun : Machine.run (CapturedApp.step httpPath encodes order) c steps = some c') :
    ∀ row ∈ c'.store.events.rows, row.event.eventType.isSql = true →
      ∃ headers request, CapturedStep.app (.request "http" headers) ∈ steps ∧
        FromSender headers request ∧ row.event.recordingId = request.recordingId ∧
          row.event.correlationId = request.correlationId := by
  intro row hrow hsql
  have hsafe : ∀ l ∈ steps, Safe httpPath l := by
    rintro l hl scopeType headers active rfl hactive
    obtain ⟨request, hsender, hsurvives⟩ := hfrom scopeType headers hl (by rw [hactive]; simp)
    obtain rfl : scopeType = "http" := eq_http_of_captureContext (by rw [hactive]; simp)
    rw [hsender.captureContext_eq] at hactive
    rw [← Option.some.inj hactive]
    exact hsurvives
  have hinv : c'.Inv httpPath := Inv.of_run hstart hsafe hrun
  obtain ⟨service, hagent⟩ := hstart.agent
  have hinit : c.ContextsFrom steps := by
    intro call hcall
    rw [hagent] at hcall
    cases hcall
  have hcontexts : c'.ContextsFrom steps :=
    Machine.invariant_mem (fun _ _ _ h hl hstep => h.step hl hstep) hinit hrun
  -- the row is one of a statement's two events, in the context of some request
  obtain ⟨active, query, result, ⟨call, hcall, hactive, -⟩, hrecording, hcorrelation, -⟩ :=
    hinv.isolated.stored row hrow hsql
  obtain ⟨scopeType, headers, hrequest, hcontext⟩ := hcontexts call hcall
  rw [hactive] at hcontext
  obtain ⟨request, hsender, -⟩ := hfrom scopeType headers hrequest (by rw [← hcontext]; simp)
  obtain rfl : scopeType = "http" := eq_http_of_captureContext (by rw [← hcontext]; simp)
  rw [hsender.captureContext_eq] at hcontext
  obtain rfl := Option.some.inj hcontext
  exact ⟨headers, request, hrequest, hsender, hrecording, hcorrelation⟩

/-- A request for the home page. -/
def homePage : WireRequest where
  method := "GET"
  rawPath := "/"
  headers := [("host", "localhost")]

/-- Its headers behind the proxy of an open recording. -/
def proxiedHeaders : Headers :=
  (UpstreamProxy.shopProxy.asked
    (UpstreamProxy.shopProxy.serving homePage UpstreamProxy.emptyAnswer)).headers

theorem fromSender_proxiedHeaders :
    ∃ e, FromSender proxiedHeaders e ∧ e.recordingId = newId "rec" "1" := by
  have hsent : (UpstreamProxy.shopProxy.forward UpstreamProxy.sampleClient
      (UpstreamProxy.shopProxy.serving homePage UpstreamProxy.emptyAnswer)).isSome = true := by
    decide
  obtain ⟨out, hout⟩ := Option.isSome_iff_exists.mp hsent
  obtain ⟨-, -, hasked⟩ := HttpClient.send_eq_some.mp hout
  have hsender := FromSender.proxied 0 hout (by decide) (by decide)
  rw [hasked] at hsender
  exact ⟨_, hsender, rfl⟩

/-- The request runs a statement, and the post of its flush arrives. -/
def proxiedRequest : List CapturedStep :=
  [.app (.request "http" proxiedHeaders), .app (.statement 0 CaptureAgent.selectStock),
    .app (.send 0 CaptureAgent.lastMessage), .app (.post 0), .arrive 0, .appender 0, .appender 0]

theorem sql_joins_request_proxied :
    ∃ c,
      Machine.run (CapturedApp.step cutPath (fun _ => true) .bySequence) openApp proxiedRequest =
        some c ∧
      c.store.events.rows.length = 2 ∧
      ∀ row ∈ c.store.events.rows, row.event.eventType.isSql = true →
        ∃ headers request, CapturedStep.app (.request "http" headers) ∈ proxiedRequest ∧
          FromSender headers request ∧ row.event.recordingId = request.recordingId ∧
            row.event.correlationId = request.correlationId := by
  have hrun : (Machine.run (CapturedApp.step cutPath (fun _ => true) .bySequence) openApp
      proxiedRequest).map (fun c => c.store.events.rows.length) = some 2 := rfl
  obtain ⟨c, hc, hlength⟩ := Option.map_eq_some_iff.mp hrun
  refine ⟨c, hc, hlength, sql_joins_request starting_openApp ?_ hc⟩
  intro scopeType headers hmem _
  -- one request comes in
  simp only [proxiedRequest, List.mem_cons, CapturedStep.app.injEq, AgentStep.request.injEq,
    List.not_mem_nil, or_false, reduceCtorEq] at hmem
  rw [hmem.2]
  obtain ⟨e, hsender, hid⟩ := fromSender_proxiedHeaders
  exact ⟨e, hsender, hid ▸ survives_rec_1⟩

end CapturedApp

end InfraReplay
