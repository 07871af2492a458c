import InfraReplay.Comparison.Relation
import InfraReplay.Replay.SameResponse
import InfraReplay.Replay.SendOrder

/-!
# Every response is judged against the answer to its own request

A recording is replayed against a live service with any concurrency, and instrumented SQL streams in
meanwhile. When the stored events are in the order in which the requests were sent
(`InSendOrder`), the HTTP rows of the comparison are known row by row: the response of the `i`-th
request is judged against what came back for the `i`-th request, and nothing is missing or new
(`responseRows_eq`).

For a service that answers every request as it did when it was captured, the verdicts are then
known too (`categories_of_unchanged`): they depend on nothing but how the two sides record a body.
-/

namespace InfraReplay

open Python

/-! ### What came back -/

/-- The service answers the `i`-th request with `service i`, whenever the answer arrives. -/
def Answers (service : ℕ → Except String Response) : SendStep → Prop
  | .start .. => True
  | .finish i outcome .. => outcome = service i

namespace Sending

variable {codec : Codec} {target : HttpTarget} {size : ℕ} {payloads : List Payload}
  {st st' : Sending} {service : ℕ → Except String Response}

/-- A step leaves the replies alone, or adds the one for the answer it brings. -/
theorem replies_of_step {l : SendStep}
    (hstep : st.step codec target size payloads l = some st') :
    st'.replies = st.replies ∨
      ∃ i outcome elapsed eventHex timestampNs reply,
        l = .finish i outcome elapsed eventHex timestampNs ∧
          st'.replies = st.replies.set i reply ∧ reply.eventId ≠ "" ∧
            reply.payload = targetResponsePayload codec outcome := by
  cases l with
  | start correlationHex eventHex timestampNs =>
    simp only [Sending.step] at hstep
    split at hstep
    · cases hstep
    · split_ifs at hstep
      obtain ⟨headers, -, rfl⟩ := Option.map_eq_some_iff.mp hstep
      -- a request that starts has no reply yet
      exact .inl rfl
  | finish i outcome elapsed eventHex timestampNs =>
    simp only [Sending.step] at hstep
    split at hstep
    · cases hstep
    · split_ifs at hstep
      obtain rfl := Option.some.inj hstep
      exact .inr ⟨i, outcome, elapsed, eventHex, timestampNs, _, rfl, rfl,
        newId_ne "evt" eventHex, rfl⟩

/-- What every reply that a step adds meets holds of all replies after any run. -/
theorem forall_reply_run {P : ℕ → Event → Prop} {labels : List SendStep}
    (hnew : ∀ i outcome elapsed eventHex timestampNs,
      SendStep.finish i outcome elapsed eventHex timestampNs ∈ labels → ∀ reply : Event,
        reply.eventId ≠ "" → reply.payload = targetResponsePayload codec outcome → P i reply)
    (hrun : Machine.run (Sending.step codec target size payloads) {} labels = some st) {i : ℕ}
    {reply : Event} (hi : st.replies.get? i = some reply) : P i reply := by
  refine Machine.invariant_mem
    (I := fun st => ∀ (i : ℕ) (reply : Event), st.replies.get? i = some reply → P i reply)
    ?_ (fun i reply hi => by cases hi) hrun i reply hi
  intro st l st' h hl hstep j reply hj
  rcases replies_of_step hstep with hsame |
    ⟨i, outcome, elapsed, eventHex, timestampNs, reply', rfl, hset, hne, hpayload⟩
  · exact h j reply (hsame ▸ hj)
  · -- the reply that came in now, and those that were there
    rw [hset, Dict.get?_set] at hj
    split_ifs at hj with hij
    · subst hij
      obtain rfl := Option.some.inj hj
      exact hnew i outcome elapsed eventHex timestampNs hl _ hne hpayload
    · exact h j reply hj

/-- Every reply has an id. -/
theorem replyId_ne_run {labels : List SendStep}
    (hrun : Machine.run (Sending.step codec target size payloads) {} labels = some st) (i : ℕ)
    (reply : Event) (hi : st.replies.get? i = some reply) : reply.eventId ≠ "" :=
  forall_reply_run (P := fun _ reply => reply.eventId ≠ "")
    (fun _ _ _ _ _ _ _ hne _ => hne) hrun hi

/-- Every reply is what the client makes of the service's answer. -/
theorem replyPayload_run {labels : List SendStep} (hservice : ∀ l ∈ labels, Answers service l)
    (hrun : Machine.run (Sending.step codec target size payloads) {} labels = some st) {i : ℕ}
    {reply : Event} (hi : st.replies.get? i = some reply) :
    reply.payload = targetResponsePayload codec (service i) := by
  refine forall_reply_run
    (P := fun i reply => reply.payload = targetResponsePayload codec (service i)) ?_ hrun hi
  intro i outcome elapsed eventHex timestampNs hl reply _ hpayload
  obtain rfl : outcome = service i := hservice _ hl
  exact hpayload

end Sending

/-! ### The responses of the source -/

/-- The responses of a recording, in order. -/
def responsesOf (events : List Event) : List Event :=
  events.filter fun e => e.eventType = .httpResponse

/-- Every correlation group has exactly one response. -/
def AnsweredOnce (events : List Event) : Prop :=
  ∀ c ∈ events.map Event.correlationId,
    ((responsesOf events).filter fun e => e.correlationId = c).length = 1

instance (events : List Event) : Decidable (AnsweredOnce events) := by
  unfold AnsweredOnce
  infer_instance

variable {events : List Event}

/-- The responses of a stream are its events of that type. -/
theorem mem_responsesOf {e : Event} :
    e ∈ responsesOf events ↔ e ∈ events ∧ e.eventType = .httpResponse := by
  rw [responsesOf, List.mem_filter, decide_eq_true_eq]

/-- The groups are in the order of the responses. -/
theorem AnsweredOnce.firstSeen (h : AnsweredOnce events) (hfin : Finished events) :
    (events.map Event.correlationId).firstSeen =
      (responsesOf events).map Event.correlationId := by
  obtain ⟨blocks, rfl, htime, -⟩ := hfin.blocks
  have hblock : ∀ b ∈ blocks, (responsesOf b).map Event.correlationId = [blockId b] := by
    intro b hb
    obtain ⟨e, he⟩ := List.exists_mem_of_ne_nil b (htime.block_ne_nil hb)
    have hc : blockId b ∈ blocks.flatten.map Event.correlationId :=
      List.mem_map.mpr ⟨e, List.mem_flatten_of_mem hb he, htime.correlationId_eq hb he⟩
    -- the responses of the group are those of the block
    have hone := h _ hc
    rw [responsesOf, List.filter_comm, htime.filter_flatten hb] at hone
    obtain ⟨response, hresponse⟩ := List.length_eq_one_iff.mp hone
    have hmem : response ∈ b :=
      (List.mem_filter.mp (hresponse ▸ List.mem_singleton_self response)).1
    rw [responsesOf, hresponse, List.map_singleton, htime.correlationId_eq hb hmem]
  have hmap : blocks.map (fun b => (responsesOf b).map Event.correlationId) =
      blocks.map fun b => [blockId b] := List.map_congr_left hblock
  rw [htime.firstSeen_flatten, responsesOf, List.filter_flatten, List.map_flatten, List.map_map]
  show _ = (blocks.map fun b => (responsesOf b).map Event.correlationId).flatten
  rw [hmap, ← List.flatMap_def, List.map_eq_flatMap]

/-- A response of the source is the first of its slot. -/
theorem AnsweredOnce.firstInSlot (h : AnsweredOnce events) {e : Event}
    (he : e ∈ responsesOf events) : FirstInSlot events e := by
  obtain ⟨hmem, htype⟩ := mem_responsesOf.mp he
  obtain ⟨response, hone⟩ := List.length_eq_one_iff.mp (h _ (List.mem_map_of_mem hmem))
  have honly : ∀ e' ∈ events, SameSlot e e' → e' = response := by
    intro e' he' hslot
    refine List.mem_singleton.mp (hone ▸ List.mem_filter.mpr ⟨?_, ?_⟩)
    · exact mem_responsesOf.mpr ⟨he', hslot.2.symm.trans htype⟩
    · exact decide_eq_true hslot.1.symm
  refine firstInSlot_of_unique hmem fun e' he' hslot => ?_
  exact (honly e' he' hslot).trans (honly e hmem ⟨rfl, rfl⟩).symm

/-- The `i`-th response answers the `i`-th request. -/
theorem exists_request_of_response (hled : RequestLed events) (hans : AnsweredOnce events)
    (hfin : Finished events) {i : ℕ} {response : Event}
    (hi : (responsesOf events)[i]? = some response) :
    ∃ request, (requestsOf events)[i]? = some request ∧
      response.correlationId = request.correlationId := by
  have hids := (hled.firstSeen hfin).symm.trans (hans.firstSeen hfin)
  have hget := congrArg (fun l : List String => l[i]?) hids
  simp only [List.getElem?_map, hi, Option.map_some] at hget
  obtain ⟨request, hrequest, hc⟩ := Option.map_eq_some_iff.mp hget
  exact ⟨request, hrequest, hc.symm⟩

/-- The `i`-th request has the `i`-th response. -/
theorem exists_response_of_request (hled : RequestLed events) (hans : AnsweredOnce events)
    (hfin : Finished events) {i : ℕ} {request : Event}
    (hi : (requestsOf events)[i]? = some request) :
    ∃ response, (responsesOf events)[i]? = some response := by
  have hids := (hled.firstSeen hfin).symm.trans (hans.firstSeen hfin)
  have hget := congrArg (fun l : List String => l[i]?) hids
  simp only [List.getElem?_map, hi, Option.map_some] at hget
  obtain ⟨response, hresponse, -⟩ := Option.map_eq_some_iff.mp hget.symm
  exact ⟨response, hresponse⟩

/-! ### The rows of the responses -/

/-- The row is about a response. -/
def ComparisonResult.IsResponse (r : ComparisonResult) : Prop :=
  r.eventType = EventType.httpResponse.value

instance (r : ComparisonResult) : Decidable r.IsResponse :=
  inferInstanceAs (Decidable (_ = _))

/-- The responses of the source, each judged against the stored reply to the request sent at its
place. -/
def ownAnswers (cfg : Config) (source : List Event) (st : Sending) : List ComparisonResult :=
  (responsesOf source).zipIdx.filterMap fun p =>
    (st.replies.get? p.2).map fun reply => (httpComparator cfg).compare p.1 (redact reply)

/-- The comparator does not look at what correlation changes. -/
theorem compare_of_bare (cfg : Config) (original : Event) {e e' : Event} (h : e.bare = e'.bare) :
    (httpComparator cfg).compare original e' = (httpComparator cfg).compare original e := by
  rw [bare_eq_iff.mp h]
  rfl

/-- The row of an original is about its type. -/
theorem eventType_of_resultFor {cfg : Config} {replayed : List Event}
    {links : Dict String String} {src : Event} {r : ComparisonResult}
    (h : resultFor (comparators cfg) replayed links src = some r) :
    r.eventType = src.eventType.value := by
  obtain ⟨comparator, hcomp, rfl⟩ := Option.map_eq_some_iff.mp h
  cases partner (replayById replayed) links src with
  | none => rfl
  | some event => exact (isVerdict_compare hcomp src event).eventType

/-- The response rows of the originals are the rows of the original responses. -/
theorem filter_resultFor {cfg : Config} (original replayed : List Event)
    (links : Dict String String) :
    (original.filterMap (resultFor (comparators cfg) replayed links)).filter
        (fun r => r.IsResponse) =
      (responsesOf original).filterMap (resultFor (comparators cfg) replayed links) := by
  rw [responsesOf, List.filter_filterMap, List.filterMap_filter]
  refine List.filterMap_congr fun src _ => ?_
  cases hrow : resultFor (comparators cfg) replayed links src with
  | none => simp
  | some r =>
    have htype := eventType_of_resultFor hrow
    simp [Option.filter, ComparisonResult.IsResponse, htype]

section Rows

variable {cfg : Config} {source : Recording} {target : HttpTarget} {payloads : List Payload}
  {st : Sending} {sql : List Event} {s : Store}

/-- A stored event shows everything of the event of the run but the place and the parent. -/
theorem StoredRun.map_bare_perm {recordingId : String} (h : StoredRun s recordingId st sql)
    (order : RowOrder) :
    ((correlate (s.eventsFor order recordingId)).map Event.bare).Perm
      (((st.events ++ sql).map redact).map Event.bare) :=
  (map_correlate_perm (f := Event.bare) (fun _ _ => rfl) (fun _ _ => rfl) _).trans
    (((s.eventsFor_perm order recordingId).trans h).map Event.bare)

/-- The `i`-th response of the source is linked to the stored reply at place `i`. -/
theorem ReplayedSource.exists_own_reply (h : ReplayedSource source target payloads st sql s)
    (hans : AnsweredOnce source.events) {order : RowOrder}
    (hseen : ((correlate (s.eventsFor order target.recordingId)).map
      Event.correlationId).firstSeen = st.correlationIds) {i : ℕ} {response : Event}
    (hi : (responsesOf source.events)[i]? = some response) :
    ∃ reply, st.replies.get? i = some reply ∧
      ∃ r ∈ correlate (s.eventsFor order target.recordingId), r.bare = (redact reply).bare ∧
        (linkStreams source.events (correlate (s.eventsFor order target.recordingId))).get?
          response.eventId = some r.eventId := by
  obtain ⟨request, hrequest, hc⟩ := exists_request_of_response h.led hans h.finished hi
  obtain ⟨sent, reply, hsent, hget, hanswer⟩ := h.exists_reply hrequest
  have hmem := h.inv.mem_events_of_reply hget
  -- the stored row of the reply
  have hrow : (redact reply).bare ∈
      (correlate (s.eventsFor order target.recordingId)).map Event.bare := by
    refine (h.stored.map_bare_perm order).mem_iff.mpr (List.mem_map_of_mem (List.mem_map_of_mem ?_))
    exact List.mem_append_left _ hmem
  obtain ⟨r, hr, hbare⟩ := List.mem_map.mp hrow
  refine ⟨reply, hget, r, hr, hbare, ?_⟩
  have hid : r.eventId = reply.eventId := (eventId_of_bare hbare).trans rfl
  have hresponse := List.mem_of_getElem? hi
  rw [hid, h.link_iff order hrequest (hans.firstInSlot hresponse) hc hmem, hanswer.correlationId]
  · exact h.inv.groupNumber_of_firstSeen hseen hsent
  · rw [(mem_responsesOf.mp hresponse).2, hanswer.eventType]

/-- A stored response is the reply to the request of some response of the source. -/
theorem ReplayedSource.exists_own_response (h : ReplayedSource source target payloads st sql s)
    (hans : AnsweredOnce source.events) {order : RowOrder} {r : Event}
    (hr : r ∈ correlate (s.eventsFor order target.recordingId))
    (htype : r.eventType = .httpResponse) :
    ∃ (i : ℕ) (response reply : Event), (responsesOf source.events)[i]? = some response ∧
      st.replies.get? i = some reply ∧ r.eventId = reply.eventId := by
  have hrow := (h.stored.map_bare_perm order).mem_iff.mp (List.mem_map_of_mem hr)
  obtain ⟨e', he', hbare⟩ := List.mem_map.mp hrow
  obtain ⟨e, he, rfl⟩ := List.mem_map.mp he'
  have hkind : e.eventType = .httpResponse :=
    (congrArg Event.eventType hbare).trans htype
  rcases List.mem_append.mp he with he | he
  · obtain ⟨i, sent, hsent, -, hplace⟩ := h.inv.place he
    obtain ⟨original, horiginal⟩ := h.exists_original hsent
    obtain ⟨response, hresponse⟩ := exists_response_of_request h.led hans h.finished horiginal
    refine ⟨i, response, e, hresponse, ?_, (eventId_of_bare hbare).symm⟩
    rcases hplace with ⟨hrequest, -⟩ | ⟨-, hreply⟩
    · rw [hkind] at hrequest
      cases hrequest
    · exact hreply
  · -- what streams in is SQL
    rcases (h.streamed e he).eventType with hsql | hsql <;> rw [hkind] at hsql <;> cases hsql

/-- In the order of sending, the response rows are those of the own answers. -/
theorem ReplayedSource.responseRows_eq (h : ReplayedSource source target payloads st sql s)
    (hans : AnsweredOnce source.events) (hids : ∀ i reply, st.replies.get? i = some reply →
      reply.eventId ≠ "") {order : RowOrder}
    (hseen : ((correlate (s.eventsFor order target.recordingId)).map
      Event.correlationId).firstSeen = st.correlationIds) :
    (compareRun (comparators cfg) source (correlate (s.eventsFor order target.recordingId))
        (linkStreams source.events (correlate (s.eventsFor order target.recordingId)))).filter
          (fun r => r.IsResponse) =
      ownAnswers cfg source.events st := by
  set replayed := correlate (s.eventsFor order target.recordingId) with hreplayed
  have hnd : (replayed.map Event.eventId).Nodup :=
    (map_eventId_correlate_perm _).nodup_iff.mpr (s.nodup_eventsFor order target.recordingId)
  have hcomp : ∀ e : Event, e.eventType = .httpResponse →
      comparatorFor (comparators cfg) e.eventType.value = some (httpComparator cfg) := by
    intro e he
    rw [he]
    rfl
  rw [compareRun_eq, List.filter_append, filter_resultFor]
  -- no reply is new: the response at its place consumes it
  have hnew : (List.filter (fun r : ComparisonResult => r.IsResponse)
      ((replayed.filter fun event =>
        event.eventId ∉ source.events.filterMap (consumes (comparators cfg) replayed
          (linkStreams source.events replayed)) ∧
            (comparatorFor (comparators cfg) event.eventType.value).isSome).map
          (newResult (replayIdOf replayed)))) = [] := by
    rw [List.filter_eq_nil_iff]
    intro row hrow hresponse
    obtain ⟨r, hmem, rfl⟩ := List.mem_map.mp hrow
    obtain ⟨hr, hkept⟩ := List.mem_filter.mp hmem
    have htype : r.eventType = .httpResponse :=
      EventType.value_inj.mp (of_decide_eq_true hresponse)
    obtain ⟨i, response, reply, hi, hget, hid⟩ := h.exists_own_response hans hr htype
    obtain ⟨reply', hget', r', hr', hbare, hlink⟩ := h.exists_own_reply hans hseen hi
    obtain rfl := Option.some.inj (hget.symm.trans hget')
    obtain rfl := List.inj_on_of_nodup_map hnd hr hr' (hid.trans (eventId_of_bare hbare).symm)
    obtain ⟨hsource, hkind⟩ := mem_responsesOf.mp (List.mem_of_getElem? hi)
    rw [decide_eq_true_eq, mem_consumes_iff hnd hr] at hkept
    exact hkept.1 ⟨response, hsource, .inl hkind, hlink, hid ▸ hids i reply hget⟩
  rw [hnew, List.append_nil, ownAnswers]
  -- the row of the response at place `i`
  conv_lhs => rw [← List.zipIdx_map_fst 0 (responsesOf source.events)]
  rw [List.filterMap_map]
  refine List.filterMap_congr fun p hp => ?_
  obtain ⟨response, i⟩ := p
  have hi := List.mk_mem_zipIdx_iff_getElem?.mp hp
  obtain ⟨reply, hget, r, hr, hbare, hlink⟩ := h.exists_own_reply hans hseen hi
  have hne : r.eventId ≠ "" := eventId_of_bare hbare ▸ hids i reply hget
  have hpartner := (partner_eq_some_iff hnd).mpr ⟨hr, hlink, hne⟩
  have hkind := (mem_responsesOf.mp (List.mem_of_getElem? hi)).2
  show resultFor (comparators cfg) replayed (linkStreams source.events replayed) response = _
  rw [resultFor, hcomp response hkind, Option.map_some, hpartner, hget, Option.map_some]
  exact congrArg some (compare_of_bare cfg response hbare).symm

end Rows

/-- **Every response is judged against the answer to its own request.** Replay any finished source
whose groups are led by their one request and have one response, with any concurrency, the requests
ending in any order and any SQL streaming in. When the stored events are in the order in which the
requests were sent, the HTTP rows of the comparison are, in order, the `i`-th response judged
against the reply to the `i`-th request that was sent: no response is missing, new or judged
against the answer to another request. -/
theorem responseRows_of_inSendOrder {cfg : Config} {source run : Recording}
    (hfin : Finished source.events) (hids : (source.events.map Event.eventId).Nodup)
    (hled : RequestLed source.events) (hans : AnsweredOnce source.events) {codec : Codec}
    {target : HttpTarget} {concurrency : ℤ} {supply : Supply} {subs : SubstitutionEngine}
    {labels : List SendStep} {st : Sending}
    (hrun : Machine.run (Sending.step codec target (batchSize concurrency)
      (sentPayloads supply subs source)) {} labels = some st)
    (hdone : st.Done (sentPayloads supply subs source)) {sql : List Event}
    (hsql : ∀ e ∈ sql, IsStreamed st e) {s s' : Store}
    (hstored : StoredRun s target.recordingId st sql) {order : RowOrder}
    (hfinish : (finishRecording order target.recordingId).run s = (.ok run, s'))
    (horder : InSendOrder (s.eventsFor order target.recordingId) st.correlationIds) :
    (compareRun (comparators cfg) source run.events
        (linkStreams source.events run.events)).filter (fun r => r.IsResponse) =
      ownAnswers cfg source.events st := by
  have hinv := Sending.inv_run hrun
  have h : ReplayedSource source target (sentPayloads supply subs source) st sql s :=
    ⟨hfin, hids, hled, by simp [sentPayloads], hinv, hdone, hsql, hstored⟩
  obtain ⟨row, path, -, -, -, rfl, -⟩ := exists_of_run_finishRecording hfinish
  exact h.responseRows_eq hans (Sending.replyId_ne_run hrun)
    ((firstSeen_correlate_eq_iff (hstored.firstSeen_perm hinv hsql order)).mpr horder)

/-! ### An unchanged service -/

/-- A JSON value with its secrets masked. -/
def scrubJson (v : Json) : Json := ⟨scrub v.val, wf_scrub v.wf⟩

/-- The codec whose decoder masks the secrets in the documents it reads. -/
def scrubbedCodec (codec : Codec) : Codec :=
  { codec with loads := fun b => (codec.loads b).map scrubJson }

section Unchanged

variable {codec : Codec} {cfg : Config}

/-- Scrubbing what a codec reads keeps it lawful. -/
theorem lawful_scrubbedCodec (h : codec.Lawful) : (scrubbedCodec codec).Lawful where
  loads_nil := by
    show (codec.loads []).map scrubJson = none
    rw [h.loads_nil, Option.map_none]
  text_nil := h.text_nil

/-- What the proxy stores of a body, in terms of the masking decoder. -/
theorem scrub_proxyDecode (codec : Codec) (maxBody : ℤ) (body : Bytes) (contentType : String) :
    scrub (proxyDecode codec maxBody body contentType).val =
      (proxyDecode (scrubbedCodec codec) maxBody body contentType).val := by
  unfold proxyDecode
  by_cases hnil : body = []
  · rw [if_pos hnil, if_pos hnil]
    rfl
  rw [if_neg hnil, if_neg hnil]
  by_cases hlong : maxBody < body.length
  · -- the note has no sensitive key
    rw [if_pos hlong, if_pos hlong]
    rfl
  rw [if_neg hlong, if_neg hlong]
  by_cases hjson : isJsonType contentType = true
  · rw [if_pos hjson, if_pos hjson, scrubbedCodec]
    cases hloads : codec.loads body <;> simp [hloads, scrub, Json.ofString, scrubJson]
  · rw [if_neg hjson, if_neg hjson]
    rfl

/-- What the client's body becomes in the store. -/
theorem scrub_targetDecode (codec : Codec) (r : Response) :
    scrub (targetDecode codec r).val = (targetDecode (scrubbedCodec codec) r).val := by
  unfold targetDecode
  by_cases hjson : isJsonType r.contentType = true
  · rw [if_pos hjson, if_pos hjson, scrubbedCodec]
    cases hloads : codec.loads r.content <;> simp [hloads, scrub, Json.ofString, scrubJson]
  · rw [if_neg hjson, if_neg hjson]
    rfl

/-- The verdict on the answer of a service that answered the same when it was captured. -/
structure UnchangedVerdict (codec : Codec) (cfg : Config) (outcome : Except String Response)
    (category : ComparisonCategory) : Prop where
  error : category = .error ↔ ∃ text, outcome = .error text
  /-- The two sides record the body alike, secrets apart. -/
  matched : category = .match ↔
    ∃ r, outcome = .ok r ∧ RecordedAlike (scrubbedCodec codec) cfg r
  paired : category ≠ .missing ∧ category ≠ .new

/-- An error of the replay is an `ERROR`, and nothing else is. -/
theorem category_compareFields_eq_error_iff {eventType : String}
    {fields : List (String × Value × Value)} {original replayed : Event} :
    (compareFields eventType fields original replayed).category = .error ↔
      replayed.payload.has "error" = true := by
  unfold compareFields
  dsimp only
  split_ifs with herr
  · exact iff_of_true rfl herr
  · exact iff_of_false (by decide) herr
  · exact iff_of_false (by decide) herr

/-- A pair of events is neither `MISSING` nor `NEW`. -/
theorem paired_httpComparator (original replayed : Event) :
    ((httpComparator cfg).compare original replayed).category ≠ .missing ∧
      ((httpComparator cfg).compare original replayed).category ≠ .new := by
  have hverdict := (isVerdict_compareFields "http.response"
    [("status", original.payload.getD "status", replayed.payload.getD "status"),
      ("body", normalize cfg (original.payload.getD "body"),
        normalize cfg (replayed.payload.getD "body"))] original replayed).category
  rcases hverdict with h | h | h <;> rw [httpComparator, h] <;> exact ⟨by decide, by decide⟩

/-- A response, stored by the capture and by the replay, matches when the two sides record the body
alike. -/
theorem compare_unchanged_ok (hcodec : codec.Lawful) {r : Response} {original stored : Event}
    (ho : original.payload =
      scrubPayload (proxyResponsePayload codec cfg.captureMaxBodyBytes (.ok r)))
    (hr : stored.payload = scrubPayload (targetResponsePayload codec (.ok r))) :
    ((httpComparator cfg).compare original stored).category ≠ .error ∧
      (((httpComparator cfg).compare original stored).category = .match ↔
        RecordedAlike (scrubbedCodec codec) cfg r) := by
  have herr : stored.payload.has "error" = false := by
    rw [hr, Payload.has, get?_scrubPayload]
    rfl
  have hstatus : original.payload.getD "status" = .int r.status ∧
      stored.payload.getD "status" = .int r.status := by
    rw [ho, hr, Payload.getD, Payload.getD, get?_scrubPayload, get?_scrubPayload]
    exact ⟨rfl, rfl⟩
  -- masking a body that was decoded is decoding with a codec that masks
  have hbody : original.payload.getD "body" = (proxyDecode (scrubbedCodec codec)
        cfg.captureMaxBodyBytes r.content r.contentType).val ∧
      stored.payload.getD "body" = (targetDecode (scrubbedCodec codec) r).val := by
    rw [ho, hr, Payload.getD, Payload.getD, get?_scrubPayload, get?_scrubPayload,
      ← scrub_proxyDecode, ← scrub_targetDecode]
    exact ⟨rfl, rfl⟩
  constructor
  · intro herror
    have hhas := category_compareFields_eq_error_iff.mp herror
    rw [herr] at hhas
    cases hhas
  · rw [httpComparator, category_compareFields_iff herr,
      ← normalize_decode_eq_iff (lawful_scrubbedCodec hcodec), hstatus.1, hstatus.2, hbody.1,
      hbody.2]
    simp [Value.eq, Value.number?, PyFloat.eq]

/-- One answer, stored by the capture and by the replay. -/
theorem compare_unchanged (hcodec : codec.Lawful) {outcome : Except String Response}
    {original reply : Event} (ho : original.payload =
      scrubPayload (proxyResponsePayload codec cfg.captureMaxBodyBytes outcome))
    (hr : reply.payload = targetResponsePayload codec outcome) :
    UnchangedVerdict codec cfg outcome
      ((httpComparator cfg).compare original (redact reply)).category := by
  have hstored : (redact reply).payload = scrubPayload (targetResponsePayload codec outcome) := by
    rw [redact, hr]
  have hpaired := @paired_httpComparator cfg original (redact reply)
  cases outcome with
  | error text =>
    -- a failed request is stored under "error", which no scrubbing removes
    have herr : (redact reply).payload.has "error" = true := by
      rw [hstored, Payload.has, get?_scrubPayload]
      rfl
    have hcategory : ((httpComparator cfg).compare original (redact reply)).category = .error :=
      category_compareFields_eq_error_iff.mpr herr
    refine ⟨iff_of_true hcategory ⟨text, rfl⟩, iff_of_false ?_ ?_, hpaired⟩
    · rw [hcategory]
      decide
    · rintro ⟨r, hok, -⟩
      cases hok
  | ok r =>
    obtain ⟨hne, hmatch⟩ := compare_unchanged_ok hcodec ho hstored
    refine ⟨iff_of_false hne ?_, hmatch.trans ?_, hpaired⟩
    · rintro ⟨text, herror⟩
      cases herror
    · constructor
      · exact fun h => ⟨r, rfl, h⟩
      · rintro ⟨r', hok, h⟩
        obtain rfl := Except.ok.inj hok
        exact h

end Unchanged

/-- The rows of the own answers, place by place. -/
theorem forall₂_ownAnswers {cfg : Config} {source : List Event} {st : Sending}
    {P : ℕ → ComparisonResult → Prop}
    (h : ∀ (i : ℕ) (response : Event), (responsesOf source)[i]? = some response →
      ∃ reply, st.replies.get? i = some reply ∧
        P i ((httpComparator cfg).compare response (redact reply))) :
    List.Forall₂ P (List.range (responsesOf source).length) (ownAnswers cfg source st) := by
  have hrange : List.range (responsesOf source).length =
      (responsesOf source).zipIdx.map Prod.snd := by
    rw [List.zipIdx_map_snd, List.range_eq_range']
  rw [hrange, ownAnswers, List.forall₂_map_left_iff]
  have hall : ∀ p ∈ (responsesOf source).zipIdx, ∃ reply, st.replies.get? p.2 = some reply ∧
      P p.2 ((httpComparator cfg).compare p.1 (redact reply)) := fun p hp =>
    h p.2 p.1 (List.mem_zipIdx_iff_getElem?.mp hp)
  -- along the list of the responses with their places
  generalize (responsesOf source).zipIdx = pairs at hall ⊢
  induction pairs with
  | nil => exact .nil
  | cons p ps ih =>
    obtain ⟨reply, hget, hP⟩ := hall p (by simp)
    rw [List.filterMap_cons, hget, Option.map_some]
    exact .cons hP (ih fun p' hp' => hall p' (List.mem_cons_of_mem p hp'))

/-- Two sends with a query between them. -/
theorem responseRows_twoSent :
    ∃ run s', (finishRecording .bySequence "rpl_1").run
        (storedEvents (twoSent.events ++ [secondQuery 35])) = (.ok run, s') ∧
      (compareRun (comparators {}) twoRequests run.events
          (linkStreams twoRequests.events run.events)).filter (fun r => r.IsResponse) =
        ownAnswers {} twoRequests.events twoSent := by
  have hfinish : ∃ run s', (finishRecording .bySequence "rpl_1").run
      (storedEvents (twoSent.events ++ [secondQuery 35])) = (.ok run, s') := ⟨_, _, rfl⟩
  obtain ⟨run, s', hfinish⟩ := hfinish
  refine ⟨run, s', hfinish, ?_⟩
  exact responseRows_of_inSendOrder (finished_correlate _) (by decide) requestLed_twoRequests
    (by decide) run_twoSends done_twoSent (isStreamed_secondQuery 35) (storedRun_twoSent 35)
    hfinish (by decide)

/-- **What a replay says of an unchanged service.** Let every response of the source be what the
proxy recorded of `service i`, let the service answer the `i`-th request of the replay with
`service i` again, and let the stored events be in the order in which the requests were sent. Then
there is one HTTP row for every response, in order, none of them `MISSING` or `NEW`: `ERROR` for a
transport error, `MATCH` exactly when the proxy and the client record the body alike once its
secrets are masked, and `DIFFERENT` otherwise. -/
theorem categories_of_unchanged {cfg : Config} {source run : Recording}
    (hfin : Finished source.events) (hids : (source.events.map Event.eventId).Nodup)
    (hled : RequestLed source.events) (hans : AnsweredOnce source.events) {codec : Codec}
    (hcodec : codec.Lawful) {service : ℕ → Except String Response}
    (hcaptured : ∀ i response, (responsesOf source.events)[i]? = some response →
      response.payload =
        scrubPayload (proxyResponsePayload codec cfg.captureMaxBodyBytes (service i)))
    {target : HttpTarget} {concurrency : ℤ} {supply : Supply} {subs : SubstitutionEngine}
    {labels : List SendStep} {st : Sending} (hservice : ∀ l ∈ labels, Answers service l)
    (hrun : Machine.run (Sending.step codec target (batchSize concurrency)
      (sentPayloads supply subs source)) {} labels = some st)
    (hdone : st.Done (sentPayloads supply subs source)) {sql : List Event}
    (hsql : ∀ e ∈ sql, IsStreamed st e) {s s' : Store}
    (hstored : StoredRun s target.recordingId st sql) {order : RowOrder}
    (hfinish : (finishRecording order target.recordingId).run s = (.ok run, s'))
    (horder : InSendOrder (s.eventsFor order target.recordingId) st.correlationIds) :
    List.Forall₂ (fun i (row : ComparisonResult) =>
        UnchangedVerdict codec cfg (service i) row.category)
      (List.range (responsesOf source.events).length)
      ((compareRun (comparators cfg) source run.events
        (linkStreams source.events run.events)).filter (fun r => r.IsResponse)) := by
  have hinv := Sending.inv_run hrun
  have h : ReplayedSource source target (sentPayloads supply subs source) st sql s :=
    ⟨hfin, hids, hled, by simp [sentPayloads], hinv, hdone, hsql, hstored⟩
  have hseen := (firstSeen_correlate_eq_iff (hstored.firstSeen_perm hinv hsql order)).mpr horder
  -- the replay reads its own recording back as `finish_recording` returned it
  obtain ⟨row, path, -, -, -, rfl, -⟩ := exists_of_run_finishRecording hfinish
  show List.Forall₂ _ _ ((compareRun _ source (correlate _) (linkStreams _ (correlate _))).filter _)
  rw [h.responseRows_eq hans (Sending.replyId_ne_run hrun) hseen]
  refine forall₂_ownAnswers fun i response hi => ?_
  obtain ⟨reply, hget, -⟩ := h.exists_own_reply hans hseen hi
  have hpayload := Sending.replyPayload_run hservice hrun hget
  exact ⟨reply, hget, compare_unchanged hcodec (hcaptured i response hi) hpayload⟩

/-! ### Two requests at once -/

/-- A service that answers the first request and not the second. -/
def halfAnswered : ℕ → Except String Response
  | 0 => .ok
      { status := 200, headers := [("content-type", "application/json")], content := okBytes }
  | _ => .error "timed out"

/-- What the proxy recorded of it. -/
def halfRecorded : Recording where
  recordingId := "rec_1"
  status := .completed
  events := correlate
    [.brief .httpRequest "evt_a" "corr_a" 0,
      .brief .httpResponse "evt_b" "corr_a" 1
        (scrubPayload (proxyResponsePayload sampleCodec 65536 (halfAnswered 0))),
      .brief .httpRequest "evt_c" "corr_b" 2,
      .brief .httpResponse "evt_d" "corr_b" 3
        (scrubPayload (proxyResponsePayload sampleCodec 65536 (halfAnswered 1)))]

/-- Both requests are under way when the second fails. -/
def overlappingSends : List SendStep :=
  [.start "1" "1" 10, .start "2" "3" 20, .finish 1 (halfAnswered 1) 10 "4" 30,
    .finish 0 (halfAnswered 0) 10 "2" 40]

/-- The run of the two. -/
def overlapped : Sending :=
  (Machine.run (Sending.step sampleCodec sampleTarget (batchSize 2)
    (sentPayloads noSupply noSubstitution halfRecorded)) {} overlappingSends).getD {}

theorem run_overlappingSends :
    Machine.run (Sending.step sampleCodec sampleTarget (batchSize 2)
      (sentPayloads noSupply noSubstitution halfRecorded)) {} overlappingSends =
        some overlapped := rfl

theorem requestLed_halfRecorded : RequestLed halfRecorded.events := by
  intro c hc
  have hids : c ∈ ["corr_a", "corr_b"] := by
    rw [← List.mem_firstSeen] at hc
    exact hc
  simp only [List.mem_cons, List.not_mem_nil, or_false] at hids
  rcases hids with rfl | rfl
  · exact ⟨_, _, rfl, rfl, by decide⟩
  · exact ⟨_, _, rfl, rfl, by decide⟩

theorem captured_halfRecorded : ∀ i response,
    (responsesOf halfRecorded.events)[i]? = some response →
      response.payload =
        scrubPayload (proxyResponsePayload sampleCodec 65536 (halfAnswered i)) := by
  rintro (_ | _ | i) response h
  · obtain rfl := Option.some.inj h
    rfl
  · obtain rfl := Option.some.inj h
    rfl
  · cases h

theorem answers_overlappingSends : ∀ l ∈ overlappingSends, Answers halfAnswered l := by
  simp [overlappingSends, Answers]

theorem done_overlapped :
    overlapped.Done (sentPayloads noSupply noSubstitution halfRecorded) := by
  have hdone : ∀ i < 2, i ∈ overlapped.replies.keys := by decide
  exact hdone

/-- The first is a `MATCH` or not by its body, the second an `ERROR`. -/
theorem categories_overlapped :
    ∃ run s', (finishRecording .bySequence "rpl_1").run
        (storedEvents (overlapped.events ++ [])) = (.ok run, s') ∧
      List.Forall₂ (fun i (row : ComparisonResult) =>
          UnchangedVerdict sampleCodec {} (halfAnswered i) row.category)
        (List.range (responsesOf halfRecorded.events).length)
        ((compareRun (comparators {}) halfRecorded run.events
          (linkStreams halfRecorded.events run.events)).filter (fun r => r.IsResponse)) := by
  have hfinish : ∃ run s', (finishRecording .bySequence "rpl_1").run
      (storedEvents (overlapped.events ++ [])) = (.ok run, s') := ⟨_, _, rfl⟩
  obtain ⟨run, s', hfinish⟩ := hfinish
  refine ⟨run, s', hfinish, ?_⟩
  have hstored : StoredRun (storedEvents (overlapped.events ++ [])) "rpl_1" overlapped [] :=
    List.Perm.of_eq rfl
  exact categories_of_unchanged (finished_correlate _) (by decide) requestLed_halfRecorded
    (by decide) sampleCodec_lawful captured_halfRecorded answers_overlappingSends
    run_overlappingSends done_overlapped (fun e he => by cases he) hstored hfinish (by decide)

end InfraReplay
