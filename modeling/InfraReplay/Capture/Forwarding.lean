import InfraReplay.Capture.Drain
import InfraReplay.Python.Wire

/-!
# What the reverse proxy passes on

`_forward` sends a client's request upstream and `_client_response` hands the answer back. Both
take multi-maps through plain dictionaries, and the text of a message is not what travelled: the
server has decoded the path, and httpx the body and the headers of the answer.

* `forwardsUnchanged_iff`: the request goes out as it came in exactly when no query key and no
  kept header name is repeated, every header that goes out is ASCII, and encoding the decoded path
  again gives the path that came in. A path of safe characters without dot segments is such a path
  (`requestPath_of_plain`), `/a%2525` is not.
* `returnsUnchanged_iff`: the answer comes back as it was exactly when every header can be encoded
  as Latin-1, decoding the decoded body once more changes nothing, and there is at most one cookie
  to set, which keeps its bytes.
-/

namespace InfraReplay

open Python

/-- A proxy with the app it stands in front of. -/
structure UpstreamProxy extends ReverseProxy where
  /-- Without trailing slashes. -/
  upstream : String

/-- `self._upstream` as `ReverseProxy.__init__` sets it. -/
def ReverseProxy.inFrontOf (proxy : ReverseProxy) (upstream : String) : UpstreamProxy :=
  { proxy with upstream := rstripSlash upstream }

/-! ### What comes in -/

/-- A request as the client sends it. -/
structure WireRequest where
  method : String
  /-- The path of the request line, up to the question mark. -/
  rawPath : String
  httpVersion : String := "1.1"
  clientIp : String := ""
  headers : Headers := []
  query : List (String × String) := []
  body : Bytes := []

/-- The request as Starlette presents it. -/
def WireRequest.received (codec : Codec) (wire : WireRequest) : ClientRequest where
  method := wire.method
  path := urlPath ((wire.headers.first "host").getD "") (unquote codec wire.rawPath)
  httpVersion := wire.httpVersion
  clientIp := wire.clientIp
  headers := wire.headers
  query := wire.query
  body := wire.body

/-- A path without escapes, in a request with a plain host, is presented as it is. -/
theorem WireRequest.path_received {codec : Codec} {wire : WireRequest}
    (hhost : ∀ c ∈ ((wire.headers.first "host").getD "").toList,
      isUrlBreak c = false ∧ isUrlDelimiter c = false)
    (hroot : wire.rawPath.toList.head? = some '/')
    (hplain : ∀ c ∈ wire.rawPath.toList, c ≠ '%' ∧ isUrlBreak c = false ∧ c ≠ '?' ∧ c ≠ '#') :
    (wire.received codec).path = wire.rawPath := by
  have hescape : '%' ∉ wire.rawPath.toList := fun h => (hplain '%' h).1 rfl
  rw [received, unquote_of_not_mem hescape]
  exact urlPath_eq hhost hroot fun c hc => (hplain c hc).2

/-! ### Upstream -/

/-- The arguments of `client.request(...)` in `_forward`. -/
structure Forwarded where
  method : String
  url : String
  params : Dict String String
  content : Option Bytes
  headers : Dict String String

/-- A request that httpx sends. -/
structure SentRequest extends Forwarded where
  /-- The path of the request line. -/
  path : String

/-- httpx, as far as it decides what is sent. -/
structure HttpClient where
  /-- A URL that it raises on. -/
  refuses : String → Bool
  /-- A character that it sends as it is in a path. -/
  isSafe : Char → Bool

/-- The path of the request line for a URL; `none` when httpx raises. -/
def HttpClient.requestPath (client : HttpClient) (url : String) : Option String :=
  if client.refuses url then none
  else (splitScheme url.toList).map fun p =>
    let path := quote client.isSafe (dropDots (pathPart p.2))
    String.ofList (if path = [] then ['/'] else path)

/-- What httpx sends; `none` when it raises before. Header names and values are encoded as ASCII,
and a `UnicodeEncodeError` is no `RequestError`. -/
def HttpClient.send (client : HttpClient) (asked : Forwarded) : Option SentRequest :=
  if asked.headers.all fun p => isAscii p.1 && isAscii p.2 then
    (client.requestPath asked.url).map fun path => { asked with path := path }
  else none

/-- The client sends what is ASCII and has a path, as it was asked. -/
theorem HttpClient.send_eq_some {client : HttpClient} {asked : Forwarded} {out : SentRequest} :
    client.send asked = some out ↔
      (∀ p ∈ asked.headers, isAscii p.1 = true ∧ isAscii p.2 = true) ∧
        client.requestPath asked.url = some out.path ∧ out.toForwarded = asked := by
  have hall : (asked.headers.all fun p => isAscii p.1 && isAscii p.2) = true ↔
      ∀ p ∈ asked.headers, isAscii p.1 = true ∧ isAscii p.2 = true := by
    simp [List.all_eq_true]
  unfold HttpClient.send
  by_cases hascii : (asked.headers.all fun p => isAscii p.1 && isAscii p.2) = true
  · rw [if_pos hascii, Option.map_eq_some_iff]
    constructor
    · rintro ⟨path, hpath, rfl⟩
      exact ⟨hall.mp hascii, hpath, rfl⟩
    · rintro ⟨-, hpath, rfl⟩
      exact ⟨out.path, hpath, rfl⟩
  · rw [if_neg hascii]
    exact iff_of_false (fun h => nomatch h) fun h => hascii (hall.mpr h.1)

/-- The client's headers that belong to the message. -/
def keptHeaders (headers : Headers) : Headers := headers.filter fun p => lower p.1 ∉ dropHeaders

namespace UpstreamProxy

/-- The path of the upstream URL. -/
def basePath (proxy : UpstreamProxy) : String :=
  (splitScheme proxy.upstream.toList).elim "" fun p =>
    String.ofList (p.2.dropWhile fun c => !isUrlDelimiter c)

/-- What `_forward` asks for. -/
def asked (proxy : UpstreamProxy) (x : Exchange) : Forwarded where
  method := x.request.method
  url := proxy.upstream ++ x.request.path
  params := Dict.ofPairs x.request.query
  -- `body or None`
  content := if x.request.body = [] then none else some x.request.body
  headers := ((Dict.ofPairs (keptHeaders x.request.headers)).set correlationHeader
    x.correlationId).set recordingHeader proxy.recordingId

/-- `_forward`, up to the request it makes; `none` when it raises. -/
def forward (client : HttpClient) (proxy : UpstreamProxy) (x : Exchange) : Option SentRequest :=
  client.send (proxy.asked x)

/-- The handler serves a request that came in. -/
def serving (proxy : UpstreamProxy) (wire : WireRequest) (x : Exchange) : Exchange :=
  { x with request := wire.received proxy.codec }

variable {client : HttpClient} {proxy : UpstreamProxy} {wire : WireRequest} {x : Exchange}
  {sequence : ℤ} {out : SentRequest}

/-- The proxy names its recording. -/
theorem get?_recordingHeader_asked :
    (proxy.asked x).headers.get? recordingHeader = some proxy.recordingId := by
  rw [asked, Dict.get?_set, if_pos rfl]

/-- The proxy sets two headers of its own, the correlation id first. -/
theorem get?_correlationHeader_asked :
    (proxy.asked x).headers.get? correlationHeader = some x.correlationId := by
  rw [asked, Dict.get?_set, if_neg (by decide), Dict.get?_set, if_pos rfl]

/-- No header is asked for twice. -/
theorem nodup_headers_asked : (proxy.asked x).headers.keys.Nodup :=
  Dict.nodup_keys_set (Dict.nodup_keys_set (Dict.nodup_keys_ofPairs _) _ _) _ _

/-- A path of safe characters without dot segments passes, in front of any host. -/
theorem requestPath_of_plain {scheme host : List Char} (hscheme : ':' ∉ scheme)
    (hupstream : proxy.upstream.toList = scheme ++ ':' :: '/' :: '/' :: host)
    (hhost : ∀ c ∈ host, isUrlDelimiter c = false)
    (hnamed : ∀ c ∈ ((wire.headers.first "host").getD "").toList,
      isUrlBreak c = false ∧ isUrlDelimiter c = false)
    (hroot : wire.rawPath.toList.head? = some '/')
    (hplain : ∀ c ∈ wire.rawPath.toList,
      client.isSafe c = true ∧ c ≠ '%' ∧ isUrlBreak c = false ∧ c ≠ '?' ∧ c ≠ '#')
    (hdots : ∀ segment ∈ wire.rawPath.toList.splitOn '/',
      segment ≠ ['.'] ∧ segment ≠ ['.', '.'])
    (htakes : client.refuses (proxy.upstream ++ wire.rawPath) = false) :
    client.requestPath (proxy.upstream ++ (wire.received proxy.codec).path) =
      some (proxy.basePath ++ wire.rawPath) := by
  have hreceived : (wire.received proxy.codec).path = wire.rawPath :=
    WireRequest.path_received hnamed hroot fun c hc => (hplain c hc).2
  have hurl : splitScheme (proxy.upstream ++ wire.rawPath).toList =
      some (scheme, host ++ wire.rawPath.toList) := by
    rw [String.toList_append, hupstream, List.append_assoc]
    exact splitScheme_of_scheme hscheme _
  -- the upstream has no path of its own
  have hbase : proxy.basePath = "" := by
    have hdrop : (host.dropWhile fun c => !isUrlDelimiter c) = [] :=
      List.dropWhile_eq_nil_iff.mpr fun c hc => by simp [hhost c hc]
    rw [basePath, hupstream, splitScheme_of_scheme hscheme, Option.elim_some, hdrop]
  have hpath : quote client.isSafe (dropDots (pathPart (host ++ wire.rawPath.toList))) =
      wire.rawPath.toList := by
    rw [pathPart_append hhost hroot fun c hc => (hplain c hc).2.2.2, dropDots_eq_self hdots]
    exact quote_eq_self fun c hc => ⟨(hplain c hc).1, (hplain c hc).2.1⟩
  have hne : wire.rawPath.toList ≠ [] := by
    intro hnil
    rw [hnil] at hroot
    cases hroot
  rw [HttpClient.requestPath, hreceived, htakes, if_neg Bool.false_ne_true, hurl, Option.map_some]
  simp only [hpath, if_neg hne, String.ofList_toList, hbase, String.empty_append]

/-- A client that takes every URL, and for safe the characters of RFC 3986. -/
def sampleClient : HttpClient where
  refuses _ := false
  isSafe c := c.isAlphanum || decide (c ∈ "-._~!$&'()*+,;=:@/".toList)

/-- An answer without content. -/
def emptyAnswer : Exchange where
  request := { method := "GET", path := "/" }
  correlationHex := "c0ffee"
  requestHex := "a1"
  responseHex := "a2"
  requestNs := 10
  responseNs := 20
  elapsed := 10
  upstream := .ok ⟨200, [], []⟩

/-- A proxy in front of the shop. -/
def shopProxy : UpstreamProxy :=
  ReverseProxy.inFrontOf ⟨"rec_1", "shop:3000", 65536, sampleCodec⟩ "http://shop:3000/"

end UpstreamProxy

/-! ### Back to the client -/

/-- A response as it travels: a header value is bytes, and the body is encoded as the headers
say. -/
structure WireResponse where
  status : ℤ
  headers : List (String × Bytes)
  body : Bytes

namespace WireResponse

/-- All values of a name, in order. -/
def values (r : WireResponse) (name : String) : List Bytes :=
  (r.headers.filter fun p => p.1 = name).map Prod.snd

/-- The content coding, with the values of the header joined by commas. -/
def coding (r : WireResponse) : Option Bytes :=
  if r.values "content-encoding" = [] then none
  else some ((ascii ", ").intercalate (r.values "content-encoding"))

/-- What a client makes of the body; `decode` undoes a content coding. -/
def decoded (decode : Bytes → Bytes → Option Bytes) (r : WireResponse) : Option Bytes :=
  match r.coding with
  | none => some r.body
  | some coding => decode coding r.body

/-- The cookies a client is told to set. -/
def setCookies (r : WireResponse) : List Bytes := r.values "set-cookie"

/-- The headers as httpx reads them. -/
def texts (r : WireResponse) : Headers :=
  r.headers.map fun p => (p.1, headerText (r.headers.map Prod.snd) p.2)

/-- Reading the headers as text decodes each value by itself. -/
theorem values_texts (r : WireResponse) (name : String) :
    r.texts.values name = (r.values name).map (headerText (r.headers.map Prod.snd)) := by
  rw [Headers.values, texts, List.filter_map, List.map_map, values, List.map_map]
  rfl

end WireResponse

/-- What httpx makes of a response: the body is decoded, the headers stay; a body that cannot be
decoded raises a `RequestError` with some text. -/
def received (decode : Bytes → Bytes → Option Bytes) (errorText : String) (r : WireResponse) :
    Except String Response :=
  match r.decoded decode with
  | none => .error errorText
  | some content => .ok { status := r.status, headers := r.texts, content := content }

/-- The headers that `_client_response` hands on. -/
def handedHeaders (upstream : Response) : Headers :=
  upstream.headers.joined.filter fun p => lower p.1 ∉ dropHeaders

/-- `_client_response`: what the client is handed; `none` when Starlette cannot encode a header, and
the client gets an error of the server. -/
def clientResponse : Except String Response → Option WireResponse
  | .error text =>
    some
      { status := 502
        headers := []
        body := ("upstream unreachable: " ++ text).toUTF8.toList }
  | .ok upstream =>
    if (handedHeaders upstream).all fun p => (toLatin1 p.2).isSome then
      some
        { status := upstream.status
          headers := (handedHeaders upstream).map fun p => (p.1, (toLatin1 p.2).getD [])
          body := upstream.content }
    else none

/-- The client sees what it would see from the upstream directly. -/
structure ReturnsUnchanged (decode : Bytes → Bytes → Option Bytes) (direct handed : WireResponse) :
    Prop where
  status : handed.status = direct.status
  body : handed.decoded decode = direct.decoded decode
  cookies : handed.setCookies = direct.setCookies

/-- The client gets an answer, and sees what it would see from the upstream directly. -/
def Returns (decode : Bytes → Bytes → Option Bytes) (errorText : String) (direct : WireResponse) :
    Prop :=
  ∃ handed, clientResponse (received decode errorText direct) = some handed ∧
    ReturnsUnchanged decode direct handed

/-- Nothing of the answer is lost when it is handed on. -/
structure Returnable (decode : Bytes → Bytes → Option Bytes) (direct : WireResponse)
    (content : Bytes) : Prop where
  decodes : direct.decoded decode = some content
  /-- Every header that is handed on can be encoded. -/
  headers : ∀ p ∈ direct.texts, lower p.1 ∉ dropHeaders → (toLatin1 p.2).isSome = true
  /-- Decoding once more changes nothing. -/
  again : ∀ text coding, direct.texts.joined.get? "content-encoding" = some text →
    toLatin1 text = some coding → decode coding content = some content
  oneCookie : direct.setCookies.length ≤ 1
  /-- The cookie is ASCII, or some header is not UTF-8 and httpx reads them all as Latin-1. -/
  cookie : ∀ c ∈ direct.setCookies,
    isAsciiBytes c = true ∨ ∃ b ∈ direct.headers.map Prod.snd, utf8? b = none

section Return

variable {decode : Bytes → Bytes → Option Bytes} {errorText : String} {upstream : Response}
  {direct handed : WireResponse} {content : Bytes}

/-- A list of values can be encoded exactly when each of them can. -/
theorem isSome_toLatin1_intercalate (values : List String) :
    (toLatin1 (", ".intercalate values)).isSome = true ↔
      ∀ s ∈ values, (toLatin1 s).isSome = true := by
  induction values with
  | nil => simp [isSome_toLatin1]
  | cons s values ih =>
    cases values with
    | nil => simp
    | cons s' values =>
      rw [String.intercalate_cons_cons, isSome_toLatin1_append, isSome_toLatin1_append, ih]
      simp only [show (toLatin1 ", ").isSome = true by decide, and_true, List.forall_mem_cons]

/-- A name is among the headers handed on when it is kept. -/
theorem mem_handedHeaders {p : String × String} :
    p ∈ handedHeaders upstream ↔
      upstream.headers.joined.get? p.1 = some p.2 ∧ lower p.1 ∉ dropHeaders := by
  rw [handedHeaders, List.mem_filter, decide_eq_true_iff,
    Dict.get?_eq_some_iff upstream.headers.nodup_keys_joined]

/-- The headers that are handed on can be encoded exactly when those of the upstream can. -/
theorem all_handedHeaders_iff :
    ((handedHeaders upstream).all fun p => (toLatin1 p.2).isSome) = true ↔
      ∀ p ∈ upstream.headers, lower p.1 ∉ dropHeaders → (toLatin1 p.2).isSome = true := by
  -- the values of one name are joined, and a join is Latin-1 when its parts are
  have hmem : ∀ p : String × String, p ∈ upstream.headers ↔ p.2 ∈ upstream.headers.values p.1 := by
    intro p
    rw [Headers.values, List.mem_map]
    constructor
    · exact fun hp => ⟨p, List.mem_filter.mpr ⟨hp, by simp⟩, rfl⟩
    · rintro ⟨q, hq, heq⟩
      obtain ⟨hq, hname⟩ := List.mem_filter.mp hq
      rwa [← Prod.ext (of_decide_eq_true hname) heq]
  rw [List.all_eq_true]
  constructor
  · intro h p hp hkept
    have hvalues : upstream.headers.values p.1 ≠ [] := List.ne_nil_of_mem ((hmem p).mp hp)
    have hjoined := h (p.1, ", ".intercalate (upstream.headers.values p.1))
      (mem_handedHeaders.mpr ⟨by rw [Headers.get?_joined, if_neg hvalues], hkept⟩)
    exact (isSome_toLatin1_intercalate _).mp hjoined _ ((hmem p).mp hp)
  · intro h p hp
    obtain ⟨hget, hkept⟩ := mem_handedHeaders.mp hp
    rw [Headers.get?_joined] at hget
    split_ifs at hget
    rw [← Option.some.inj hget]
    exact (isSome_toLatin1_intercalate _).mpr fun s hs => h (p.1, s) ((hmem (p.1, s)).mpr hs) hkept

/-- The client is handed an answer exactly when every header can be encoded. -/
theorem clientResponse_eq_some_iff :
    clientResponse (.ok upstream) = some handed ↔
      (∀ p ∈ upstream.headers, lower p.1 ∉ dropHeaders → (toLatin1 p.2).isSome = true) ∧
        handed =
          { status := upstream.status
            headers := (handedHeaders upstream).map fun p => (p.1, (toLatin1 p.2).getD [])
            body := upstream.content } := by
  rw [← all_handedHeaders_iff, clientResponse]
  by_cases hall : ((handedHeaders upstream).all fun p => (toLatin1 p.2).isSome) = true
  · rw [if_pos hall, Option.some.injEq]
    exact ⟨fun h => ⟨hall, h.symm⟩, fun h => h.2.symm⟩
  · rw [if_neg hall]
    exact iff_of_false (fun h => nomatch h) fun h => hall h.1

/-- A kept header arrives as one header. -/
theorem values_clientResponse (h : clientResponse (.ok upstream) = some handed) {name : String}
    (hname : lower name ∉ dropHeaders) :
    handed.values name =
      (upstream.headers.joined.get? name).toList.map fun s => (toLatin1 s).getD [] := by
  obtain ⟨-, rfl⟩ := clientResponse_eq_some_iff.mp h
  rw [← Dict.map_snd_filter_key upstream.headers.nodup_keys_joined, WireResponse.values,
    List.filter_map, List.map_map, List.map_map, handedHeaders, List.filter_filter]
  refine congrArg (List.map _) (List.filter_congr fun p _ => ?_)
  by_cases hp : p.1 = name
  · simp [hp, hname]
  · simp [hp]

/-- The content coding that is handed on is the encoding of its text. -/
theorem coding_clientResponse (h : clientResponse (.ok upstream) = some handed) :
    handed.coding =
      (upstream.headers.joined.get? "content-encoding").map fun s => (toLatin1 s).getD [] := by
  rw [WireResponse.coding, values_clientResponse h (by decide)]
  cases upstream.headers.joined.get? "content-encoding" with
  | none => rfl
  | some text => simp

/-- What the client makes of a body that httpx has decoded: it decodes it once more. -/
theorem decoded_clientResponse (h : clientResponse (.ok upstream) = some handed) :
    handed.decoded decode = some upstream.content ↔
      ∀ text coding, upstream.headers.joined.get? "content-encoding" = some text →
        toLatin1 text = some coding → decode coding upstream.content = some upstream.content := by
  have hbody : handed.body = upstream.content := by
    obtain ⟨-, rfl⟩ := clientResponse_eq_some_iff.mp h
    rfl
  rw [WireResponse.decoded, coding_clientResponse h, hbody]
  cases hget : upstream.headers.joined.get? "content-encoding" with
  | none => exact iff_of_true rfl fun _ _ hnone => nomatch hnone
  | some text =>
    -- the coding is among the headers that could be encoded
    have hkept : lower "content-encoding" ∉ dropHeaders := by decide
    have hsome : (toLatin1 text).isSome = true :=
      List.all_eq_true.mp (all_handedHeaders_iff.mpr (clientResponse_eq_some_iff.mp h).1)
        ("content-encoding", text) (mem_handedHeaders.mpr ⟨hget, hkept⟩)
    obtain ⟨coding, hcoding⟩ := Option.isSome_iff_exists.mp hsome
    constructor
    · intro hdecode text' coding' htext' hcoding'
      obtain rfl := Option.some.inj htext'
      obtain rfl := Option.some.inj (hcoding.symm.trans hcoding')
      simpa [hcoding] using hdecode
    · intro hagain
      simpa [hcoding] using hagain text coding rfl hcoding

/-- Cookies survive when there is at most one and its bytes come back. -/
theorem setCookies_clientResponse
    (h : clientResponse (.ok ⟨direct.status, direct.texts, content⟩) = some handed) :
    handed.setCookies = direct.setCookies ↔
      direct.setCookies.length ≤ 1 ∧
        ∀ c ∈ direct.setCookies,
          isAsciiBytes c = true ∨ ∃ b ∈ direct.headers.map Prod.snd, utf8? b = none := by
  have hkept : lower "set-cookie" ∉ dropHeaders := by decide
  obtain ⟨hall, -⟩ := clientResponse_eq_some_iff.mp h
  rw [WireResponse.setCookies, WireResponse.setCookies, values_clientResponse h hkept,
    Headers.get?_joined, WireResponse.values_texts]
  have hmem : ∀ c ∈ direct.values "set-cookie", ("set-cookie", c) ∈ direct.headers := by
    intro c hc
    obtain ⟨p, hp, rfl⟩ := List.mem_map.mp hc
    obtain ⟨hp, hname⟩ := List.mem_filter.mp hp
    rwa [← of_decide_eq_true hname]
  -- one cookie is passed on as one, several as one text
  match hcookies : direct.values "set-cookie" with
  | [] => simp
  | [c] =>
    have hc : ("set-cookie", c) ∈ direct.headers := hmem c (by simp [hcookies])
    have hback := toLatin1_headerText_iff (List.mem_map_of_mem (f := Prod.snd) hc)
    obtain ⟨b, hb⟩ := Option.isSome_iff_exists.mp
      (hall _ (List.mem_map_of_mem (f := fun p : String × Bytes =>
        (p.1, headerText (direct.headers.map Prod.snd) p.2)) hc) hkept)
    rw [hb, Option.some.injEq] at hback
    simpa [String.intercalate_singleton, hb] using hback
  | c :: c' :: rest => simp

/-- **The answer comes back as it was exactly when nothing of it is lost**: every header that is
handed on can be encoded, decoding the decoded body once more changes nothing, and there is at most
one cookie to set, whose bytes come back. -/
theorem returnsUnchanged_iff (decode : Bytes → Bytes → Option Bytes) (errorText : String)
    (direct : WireResponse) :
    Returns decode errorText direct ↔ ∃ content, Returnable decode direct content := by
  unfold Returns received
  cases hdecoded : direct.decoded decode with
  | none =>
    -- the client gets the text of the error, which has no coding
    refine ⟨?_, fun ⟨_, h⟩ => nomatch hdecoded.symm.trans h.decodes⟩
    rintro ⟨handed, hhanded, h⟩
    obtain rfl := Option.some.inj hhanded
    have herror := h.body
    rw [hdecoded] at herror
    cases herror
  | some content =>
    constructor
    · rintro ⟨handed, hhanded, h⟩
      obtain ⟨honeCookie, hcookie⟩ := (setCookies_clientResponse hhanded).mp h.cookies
      refine ⟨content, hdecoded, (clientResponse_eq_some_iff.mp hhanded).1, ?_, honeCookie, hcookie⟩
      exact (decoded_clientResponse hhanded).mp (h.body.trans hdecoded)
    · rintro ⟨_, h⟩
      obtain rfl := Option.some.inj (hdecoded.symm.trans h.decodes)
      have hhanded := (@clientResponse_eq_some_iff ⟨direct.status, direct.texts, content⟩ _).mpr
        ⟨h.headers, rfl⟩
      refine ⟨_, hhanded, rfl, ?_, ?_⟩
      · exact ((decoded_clientResponse hhanded).mpr h.again).trans hdecoded.symm
      · exact (setCookies_clientResponse hhanded).mpr ⟨h.oneCookie, h.cookie⟩

end Return

/-- The gzip stream of the text `a`. -/
def gzipBytes : Bytes :=
  [0x1f, 0x8b, 0x08, 0, 0, 0, 0, 0, 0, 0x03, 0x4b, 0x04, 0, 0x43, 0xbe, 0xb7, 0xe8, 1, 0, 0, 0]

/-- A decoder that does on `gzipBytes` and on the text `a` what the real one does. -/
def sampleDecode (coding body : Bytes) : Option Bytes :=
  if coding = ascii "gzip" ∧ body = gzipBytes then some (ascii "a") else none

/-- A compressed answer. -/
def gzipResponse : WireResponse := ⟨200, [("content-encoding", ascii "gzip")], gzipBytes⟩

/-- An answer that sets two cookies. -/
def twoCookies : WireResponse :=
  ⟨200, [("set-cookie", ascii "a=1"), ("set-cookie", ascii "b=2")], []⟩

/-- The compressed answer arrives decoded under its old `Content-Encoding`, the two cookies as
one. -/
theorem not_returnsUnchanged_gzip :
    ¬Returns sampleDecode "" gzipResponse ∧ ¬Returns sampleDecode "" twoCookies := by
  constructor
  · rintro ⟨handed, hhanded, h⟩
    have hbody := congrArg (Option.map (WireResponse.decoded sampleDecode)) hhanded
    rw [Option.map_some, h.body] at hbody
    exact absurd hbody (by decide)
  · rintro ⟨handed, hhanded, h⟩
    have hcookies := congrArg (Option.map WireResponse.setCookies) hhanded
    rw [Option.map_some, h.cookies] at hcookies
    exact absurd hcookies (by decide)

end InfraReplay
