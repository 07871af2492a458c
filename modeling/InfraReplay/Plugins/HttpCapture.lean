import InfraReplay.Comparison.Normalize
import InfraReplay.Python.Http
import InfraReplay.Schema

/-!
# The reverse proxy

What the capture proxy records of a request and of the response to it. Bodies above the capture
limit are recorded as a note, JSON bodies as JSON, everything else as text.
-/

namespace InfraReplay

open Python

/-- `_DROP_HEADERS`, the same set in the proxy and in the replay client. -/
def dropHeaders : List String :=
  ["host", "content-length", "connection", "transfer-encoding", "keep-alive"]

/-- `content_type.startswith(_JSON)`. -/
def isJsonType (contentType : String) : Bool := startsWith contentType "application/json"

/-- A client's request as Starlette presents it. -/
structure ClientRequest where
  method : String
  path : String
  httpVersion : String := "1.1"
  /-- `""` without a client address. -/
  clientIp : String := ""
  headers : Headers := []
  query : List (String × String) := []
  body : Bytes := []

/-- The note recorded in place of a body above the limit. -/
def truncationNote (maxBody : ℤ) (body : Bytes) : Json where
  val := .dict [("truncated", .bool true), ("captured_bytes", .int maxBody),
    ("total_bytes", .int body.length)]
  wf := rfl

/-- `ReverseProxy._decode`. -/
def proxyDecode (codec : Codec) (maxBody : ℤ) (body : Bytes) (contentType : String) : Json :=
  if body = [] then ⟨.none, Value.wf_none⟩
  else if maxBody < body.length then truncationNote maxBody body
  else if isJsonType contentType then
    match codec.loads body with
    | some v => v
    -- `except ValueError: pass`, on to the text
    | none => .ofString (codec.utf8 body)
  else .ofString (codec.utf8 body)

section Decode

variable {codec : Codec} {maxBody : ℤ} {body : Bytes} {contentType : String}

@[simp]
theorem proxyDecode_nil (codec : Codec) (maxBody : ℤ) (contentType : String) :
    proxyDecode codec maxBody [] contentType = ⟨.none, rfl⟩ := rfl

theorem proxyDecode_long (hne : body ≠ []) (hlong : maxBody < body.length) :
    proxyDecode codec maxBody body contentType = truncationNote maxBody body := by
  rw [proxyDecode, if_neg hne, if_pos hlong]

/-- A body within the limit that parses under a JSON content type is recorded as JSON. -/
theorem proxyDecode_json {v : Json} (hne : body ≠ []) (hfits : ¬maxBody < body.length)
    (hjson : isJsonType contentType = true) (hloads : codec.loads body = some v) :
    proxyDecode codec maxBody body contentType = v := by
  unfold proxyDecode
  rw [if_neg hne, if_neg hfits, if_pos hjson, hloads]

/-- Any other body within the limit is recorded as text. -/
theorem proxyDecode_text (hne : body ≠ []) (hfits : ¬maxBody < body.length)
    (hnot : ¬(isJsonType contentType = true ∧ (codec.loads body).isSome)) :
    proxyDecode codec maxBody body contentType = .ofString (codec.utf8 body) := by
  unfold proxyDecode
  rw [if_neg hne, if_neg hfits]
  by_cases hjson : isJsonType contentType = true
  · rw [if_pos hjson]
    cases hloads : codec.loads body with
    | none => rfl
    | some v => exact absurd ⟨hjson, by simp [hloads]⟩ hnot
  · rw [if_neg hjson]

end Decode

/-- The payload of the `http.request` event that `_handle` emits. -/
def proxyRequestPayload (codec : Codec) (maxBody : ℤ) (request : ClientRequest) : Payload :=
  .ofEntries
    [("method", .ofString request.method), ("path", .ofString request.path),
      ("http_version", .ofString request.httpVersion), ("client_ip", .ofString request.clientIp),
      ("headers", .ofStrings (request.headers.filter fun p => lower p.1 ∉ dropHeaders)),
      ("query", .ofStrings request.query),
      ("body", proxyDecode codec maxBody request.body
        ((request.headers.first "content-type").getD ""))]
    (by simp)

/-- `_response_payload` of the proxy; an exception is given by its text. -/
def proxyResponsePayload (codec : Codec) (maxBody : ℤ) : Except String Response → Payload
  | .error text => .ofEntries [("error", .ofString text)] (by simp)
  | .ok r =>
    .ofEntries
      [("status", .ofInt r.status), ("headers", .ofStrings r.headers.joined),
        ("body", proxyDecode codec maxBody r.content r.contentType)]
      (by simp)

end InfraReplay
