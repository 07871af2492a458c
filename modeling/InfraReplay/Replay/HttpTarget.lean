import InfraReplay.Plugins.HttpCapture

/-!
# The replay client

`HttpTarget.send` turns a recorded `http.request` payload into a request, and what came back into
an `http.response` payload. A recorded payload can hold any JSON value in any place; `fmt` is how
an f-string shows a value that is no string.
-/

namespace InfraReplay

open Python

/-- `RECORDING_HEADER`. -/
def recordingHeader : String := "x-infrareplay-recording-id"

/-- `CORRELATION_HEADER`. -/
def correlationHeader : String := "x-infrareplay-correlation-id"

/-- An `HttpTarget` after `__init__`. -/
structure HttpTarget where
  /-- Without trailing slashes. -/
  baseUrl : String
  recordingId : String
  /-- `urlparse(base_url).netloc or base_url`. -/
  service : String

/-- A replay target for a base URL. -/
def HttpTarget.open (baseUrl recordingId service : String) : HttpTarget where
  baseUrl := rstripSlash baseUrl
  recordingId := recordingId
  service := service

namespace HttpTarget

variable (target : HttpTarget)

/-- `_headers`; `none` is the `AttributeError` of a true value that is no object. -/
def headers (payload : Payload) (correlationId : String) : Option Payload :=
  match h : payload.getD "headers" with
  | .dict items =>
    let kept : Payload :=
      { items := items.filter fun p => lower p.1 ∉ dropHeaders
        wf := by
          have hwf := payload.wf_getD "headers"
          rw [h] at hwf
          obtain ⟨hnd, hvals⟩ := Value.wf_dict.mp hwf
          refine Value.wf_dict.mpr ⟨hnd.sublist (List.filter_sublist.map _), fun p hp => ?_⟩
          exact hvals p (List.mem_of_mem_filter hp) }
    some ((kept.set recordingHeader (.ofString target.recordingId)).set correlationHeader
      (.ofString correlationId))
  -- `payload.get("headers") or {}`
  | v =>
    if v.truthy then none
    else some ((Payload.empty.set recordingHeader (.ofString target.recordingId)).set
      correlationHeader (.ofString correlationId))

/-- The replay client keeps recorded headers, and sets two of its own. -/
theorem exists_kept {target : HttpTarget} {payload headers : Payload} {correlationId : String}
    (h : target.headers payload correlationId = some headers) :
    ∃ kept : Dict String Value, kept.keys.Nodup ∧
      headers.items = (kept.set recordingHeader (.str target.recordingId)).set correlationHeader
        (.str correlationId) ∧
      ∀ p ∈ kept, ∃ items, payload.getD "headers" = .dict items ∧ p ∈ items := by
  unfold HttpTarget.headers at h
  split at h
  · next items hitems =>
    obtain rfl := Option.some.inj h
    refine ⟨items.filter fun p => lower p.1 ∉ dropHeaders, ?_, rfl, fun p hp => ?_⟩
    · have hwf := payload.wf_getD "headers"
      rw [hitems] at hwf
      exact (Value.wf_dict.mp hwf).1.sublist (List.filter_sublist.map _)
    · exact ⟨items, hitems, List.mem_of_mem_filter hp⟩
  · -- no headers were recorded
    split_ifs at h
    obtain rfl := Option.some.inj h
    exact ⟨[], List.nodup_nil, rfl, fun p hp => absurd hp List.not_mem_nil⟩

/-- `{**payload, "headers": headers}`. -/
def requestPayload (payload headers : Payload) : Payload :=
  payload.set "headers" ⟨.dict headers.items, headers.wf⟩

/-- What `send` asks httpx to do. -/
structure Outgoing where
  method : Value
  url : String
  params : Option Value
  json : Option Json
  headers : Payload

/-- How an f-string shows a value. -/
def formatValue (fmt : Value → String) : Value → String
  | .str s => s
  | v => fmt v

/-- `payload.get(key)` with the proof that it is well formed. -/
def entry (payload : Payload) (key : String) : Json := ⟨payload.getD key, payload.wf_getD key⟩

/-- The arguments of `self._client.request(...)`. -/
def outgoing (fmt : Value → String) (payload headers : Payload) : Outgoing where
  method := (payload.get? "method").getD (.str "GET")
  url := target.baseUrl ++ formatValue fmt ((payload.get? "path").getD (.str "/"))
  params := if (payload.getD "query").truthy then some (payload.getD "query") else none
  json := if (payload.getD "body").truthy then some (entry payload "body") else none
  headers := headers

section Outgoing

variable (fmt : Value → String) (payload headers : Payload)

@[simp]
theorem outgoing_params : (target.outgoing fmt payload headers).params =
    if (payload.getD "query").truthy then some (payload.getD "query") else none := rfl

end Outgoing

/-- The body httpx sends: none at all for `json=None`; `none` when encoding raises. -/
def Outgoing.body (codec : Codec) (out : Outgoing) : Option Bytes :=
  match out.json with
  | none => some []
  | some v => codec.dumps v

end HttpTarget

/-- `_decode` of the replay client. -/
def targetDecode (codec : Codec) (r : Response) : Json :=
  if isJsonType r.contentType then
    match codec.loads r.content with
    | some v => v
    | none => .ofString (codec.text r.contentType r.content)
  else .ofString (codec.text r.contentType r.content)

/-- The payload of the `http.response` event of a replay; a transport error is given by its
text. -/
def targetResponsePayload (codec : Codec) : Except String Response → Payload
  | .error text => .ofEntries [("error", .ofString text)] (List.nodup_singleton "error")
  | .ok r =>
    .ofEntries
      [("status", .ofInt r.status), ("headers", .ofStrings r.headers.joined),
        ("body", targetDecode codec r)]
      (by simp)

end InfraReplay
