import InfraReplay.Replay.HttpRun
import InfraReplay.Replay.Linking

/-!
# Links point at the request that was re-sent

The requests of a finished recording go through `HttpTarget`, the instrumented target streams SQL
back under their correlation ids, and the run is correlated and linked. The pairing is by group
number, and the groups of the run are numbered by the clocks of their earliest events, whatever
those events are. So every link is right exactly when the groups of the run, sorted by these
clocks, come in the order in which the requests were sent (`linksSent_iff`); one SQL event with an
early clock is enough to exchange two pairs.
-/

namespace InfraReplay

open Python

/-! ### The source -/

/-- Every correlation group has exactly one request, and it is the group's first event. -/
def RequestLed (events : List Event) : Prop :=
  ∀ c ∈ events.map Event.correlationId, ∃ request rest,
    (events.filter fun e => e.correlationId = c) = request :: rest ∧
      request.eventType = .httpRequest ∧ ∀ e ∈ rest, e.eventType ≠ .httpRequest

variable {events : List Event}

/-- The groups are in the order of the requests. -/
theorem RequestLed.firstSeen (h : RequestLed events) (hfin : Finished events) :
    (events.map Event.correlationId).firstSeen =
      (requestsOf events).map Event.correlationId := by
  obtain ⟨blocks, rfl, htime, -⟩ := hfin.blocks
  -- every block is a group, and so it has one request
  have hblock : ∀ b ∈ blocks, (requestsOf b).map Event.correlationId = [blockId b] := by
    intro b hb
    have hne := htime.block_ne_nil hb
    obtain ⟨e, he⟩ := List.exists_mem_of_ne_nil b hne
    have hc : blockId b ∈ blocks.flatten.map Event.correlationId :=
      List.mem_map.mpr ⟨e, List.mem_flatten_of_mem hb he, htime.correlationId_eq hb he⟩
    obtain ⟨request, rest, hgroup, htype, hrest⟩ := h _ hc
    rw [htime.filter_flatten hb] at hgroup
    have hnone : (rest.filter fun e => e.eventType = .httpRequest) = [] :=
      List.filter_eq_nil_iff.mpr fun e he => by simpa using hrest e he
    have hrequests : requestsOf b = [request] := by
      rw [requestsOf, hgroup, List.filter_cons_of_pos (by simpa using htype), hnone]
    rw [hrequests, List.map_singleton, htime.correlationId_eq hb (by simp [hgroup])]
  have hmap : blocks.map (fun b => (requestsOf b).map Event.correlationId) =
      blocks.map fun b => [blockId b] := List.map_congr_left hblock
  rw [htime.firstSeen_flatten, requestsOf, List.filter_flatten, List.map_flatten, List.map_map]
  show _ = (blocks.map fun b => (requestsOf b).map Event.correlationId).flatten
  rw [hmap, ← List.flatMap_def, List.map_eq_flatMap]

/-- A request of the source is the first of its slot. -/
theorem RequestLed.firstInSlot (h : RequestLed events) {e : Event} (he : e ∈ requestsOf events) :
    FirstInSlot events e := by
  obtain ⟨hmem, htype⟩ := List.mem_filter.mp he
  obtain ⟨request, rest, hgroup, -, hrest⟩ := h _ (List.mem_map_of_mem hmem)
  -- a group has one request, the one that leads it
  have hhead : ∀ e' ∈ events, e'.correlationId = e.correlationId →
      e'.eventType = .httpRequest → e' = request := by
    intro e' he' hc htype'
    have hin : e' ∈ request :: rest := by
      rw [← hgroup, List.mem_filter]
      exact ⟨he', decide_eq_true hc⟩
    rcases List.mem_cons.mp hin with rfl | hin
    · rfl
    · exact absurd htype' (hrest e' hin)
  have heq := hhead e hmem rfl (of_decide_eq_true htype)
  refine firstInSlot_of_unique hmem fun e' he' hslot => ?_
  rw [heq]
  exact hhead e' he' hslot.1.symm (hslot.2.symm.trans (of_decide_eq_true htype))

/-- The `i`-th request of the source leads its `i`-th group. -/
theorem RequestLed.groupNumber_eq (h : RequestLed events) (hfin : Finished events) {i : ℕ}
    {e : Event} (he : (requestsOf events)[i]? = some e) :
    groupNumber events e.correlationId = i := by
  have hnd := List.nodup_firstSeen (events.map Event.correlationId)
  rw [h.firstSeen hfin] at hnd
  obtain ⟨hlt, rfl⟩ := List.getElem?_eq_some_iff.mp he
  rw [groupNumber, h.firstSeen hfin]
  have hidx := hnd.idxOf_getElem i (by simpa using hlt)
  rwa [List.getElem_map] at hidx

/-! ### The run -/

/-- An event that the instrumented target streams back for one of the requests. -/
structure IsStreamed (st : Sending) (e : Event) : Prop where
  eventType : e.eventType = .pgQuery ∨ e.eventType = .pgResult
  correlationId : e.correlationId ∈ st.correlationIds

variable {target : HttpTarget} {payloads : List Payload} {st : Sending}

/-- The correlation id of a request, by its place. -/
theorem getElem?_correlationIds {i : ℕ} {e : Event} (hi : st.requests[i]? = some e) :
    st.correlationIds[i]? = some e.correlationId := by
  rw [Sending.correlationIds, List.getElem?_map, hi]
  rfl

/-- Requests of one correlation id are one request. -/
theorem Sending.Inv.index_eq (h : st.Inv target payloads) {i j : ℕ} {e e' : Event}
    (hi : st.requests[i]? = some e) (hj : st.requests[j]? = some e')
    (hc : e.correlationId = e'.correlationId) : i = j := by
  have hi' := getElem?_correlationIds hi
  have hj' := getElem?_correlationIds hj
  obtain ⟨hlt, -⟩ := List.getElem?_eq_some_iff.mp hi'
  refine (List.getElem?_inj hlt h.nodup).mp ?_
  rw [hi', hj', hc]

/-- An event of the run is the request at some place, or the reply to it. -/
theorem Sending.Inv.place (h : st.Inv target payloads) {e : Event} (he : e ∈ st.events) :
    ∃ (i : ℕ) (request : Event), st.requests[i]? = some request ∧
      e.correlationId = request.correlationId ∧
      ((e.eventType = .httpRequest ∧ e = request) ∨
        (e.eventType = .httpResponse ∧ st.replies.get? i = some e)) := by
  obtain ⟨⟨request, i⟩, hmem, he⟩ := List.mem_flatMap.mp he
  have hi := List.mk_mem_zipIdx_iff_getElem?.mp hmem
  refine ⟨i, request, hi, ?_⟩
  -- at place `i` there is the request and, once it has completed, its reply
  rcases List.mem_cons.mp he with rfl | he
  · obtain ⟨payload, -, hrequest⟩ := h.request i e hi
    exact ⟨rfl, .inl ⟨hrequest.eventType, rfl⟩⟩
  · have hreply := Option.mem_toList.mp he
    obtain ⟨request', hi', hanswer⟩ := h.reply i e hreply
    obtain rfl := Option.some.inj (hi.symm.trans hi')
    exact ⟨hanswer.correlationId, .inr ⟨hanswer.eventType, hreply⟩⟩

/-- A request that was sent is among the events. -/
theorem Sending.mem_events_of_request {i : ℕ} {e : Event} (hi : st.requests[i]? = some e) :
    e ∈ st.events :=
  List.mem_flatMap.mpr ⟨(e, i), List.mk_mem_zipIdx_iff_getElem?.mpr hi, by simp⟩

/-- So is its reply. -/
theorem Sending.Inv.mem_events_of_reply (h : st.Inv target payloads) {i : ℕ} {e : Event}
    (hi : st.replies.get? i = some e) : e ∈ st.events := by
  obtain ⟨request, hrequest, -⟩ := h.reply i e hi
  exact List.mem_flatMap.mpr
    ⟨(request, i), List.mk_mem_zipIdx_iff_getElem?.mpr hrequest, by simp [hi]⟩

/-- A request or a reply is the one event of its slot in the run. -/
theorem eq_of_sameSlot (h : st.Inv target payloads) {sql : List Event}
    (hsql : ∀ e ∈ sql, IsStreamed st e) {e e' : Event} (he : e ∈ st.events)
    (he' : e' ∈ st.events ++ sql) (hslot : SameSlot e e') : e' = e := by
  obtain ⟨i, request, hi, hc, hplace⟩ := h.place he
  have hkind : e'.eventType = .httpRequest ∨ e'.eventType = .httpResponse := by
    rw [← hslot.2]
    exact hplace.imp And.left And.left
  rcases List.mem_append.mp he' with he' | he'
  · -- two events of one group are at one place
    obtain ⟨j, request', hj, hc', hplace'⟩ := h.place he'
    obtain rfl := h.index_eq hi hj (hc.symm.trans (hslot.1.trans hc'))
    obtain rfl := Option.some.inj (hi.symm.trans hj)
    rcases hplace with ⟨htype, rfl⟩ | ⟨htype, hreply⟩ <;>
      rcases hplace' with ⟨htype', rfl⟩ | ⟨htype', hreply'⟩
    · rfl
    · cases htype.symm.trans (hslot.2.trans htype')
    · cases htype.symm.trans (hslot.2.trans htype')
    · exact Option.some.inj (hreply'.symm.trans hreply)
  · -- an SQL event is no request and no response
    rcases (hsql e' he').eventType with htype | htype <;> rw [htype] at hkind <;> simp at hkind

/-! ### The stored run -/

/-- What linking looks at, and the id. -/
def tag (e : Event) : String × String × EventType := (e.eventId, e.correlationId, e.eventType)

/-- The rows of the replay recording are the events of the run, redacted, in some order. -/
def StoredRun (s : Store) (recordingId : String) (st : Sending) (sql : List Event) : Prop :=
  ((s.eventRows recordingId).map EventRow.event).Perm ((st.events ++ sql).map redact)

section Stored

variable {s : Store} {recordingId : String} {sql : List Event} {order : RowOrder}

/-- The correlated run shows the ids, groups and types of the events of the run. -/
theorem StoredRun.map_tag_perm (h : StoredRun s recordingId st sql) (order : RowOrder) :
    ((correlate (s.eventsFor order recordingId)).map tag).Perm ((st.events ++ sql).map tag) := by
  have hcorrelate := map_correlate_perm (f := tag) (fun _ _ => rfl) (fun _ _ => rfl)
    (s.eventsFor order recordingId)
  have hread := ((s.eventsFor_perm order recordingId).trans h).map tag
  rw [map_redact fun _ _ => rfl] at hread
  exact hcorrelate.trans hread

/-- A request or a reply is in the correlated run, first of its slot. -/
theorem StoredRun.exists_firstInSlot (h : StoredRun s recordingId st sql)
    (hinv : st.Inv target payloads) (hsql : ∀ e ∈ sql, IsStreamed st e) (order : RowOrder)
    {e : Event} (he : e ∈ st.events) :
    ∃ r, FirstInSlot (correlate (s.eventsFor order recordingId)) r ∧ tag r = tag e := by
  have htags := h.map_tag_perm order
  have hnd := (map_eventId_correlate_perm (s.eventsFor order recordingId)).nodup_iff.mpr
    (s.nodup_eventsFor order recordingId)
  have hmem : tag e ∈ (correlate (s.eventsFor order recordingId)).map tag :=
    htags.mem_iff.mpr (List.mem_map_of_mem (List.mem_append_left _ he))
  obtain ⟨r, hr, htag⟩ := List.mem_map.mp hmem
  refine ⟨r, firstInSlot_of_unique hr fun r' hr' hslot => ?_, htag⟩
  obtain ⟨e', he', htag'⟩ := List.mem_map.mp (htags.mem_iff.mp (List.mem_map_of_mem hr'))
  have hsame : SameSlot e e' := by
    simp only [tag, Prod.mk.injEq] at htag htag'
    exact ⟨htag.2.1.symm.trans (hslot.1.trans htag'.2.1.symm),
      htag.2.2.symm.trans (hslot.2.trans htag'.2.2.symm)⟩
  -- the slot has one event in the run, and one row
  have heq := eq_of_sameSlot hinv hsql he he' hsame
  refine List.inj_on_of_nodup_map hnd hr' hr ?_
  have hids : tag r' = tag r := by rw [← htag', heq, htag]
  exact congrArg Prod.fst hids

/-- The groups of the run are those of the requests. -/
theorem StoredRun.firstSeen_perm (h : StoredRun s recordingId st sql)
    (hinv : st.Inv target payloads) (hsql : ∀ e ∈ sql, IsStreamed st e) (order : RowOrder) :
    ((s.eventsFor order recordingId).map Event.correlationId).firstSeen.Perm
      st.correlationIds := by
  refine (List.perm_ext_iff_of_nodup (List.nodup_firstSeen _) hinv.nodup).mpr fun c => ?_
  have hread := ((s.eventsFor_perm order recordingId).trans h).map Event.correlationId
  rw [map_redact fun _ _ => rfl] at hread
  rw [List.mem_firstSeen, hread.mem_iff]
  constructor
  · -- every stored event belongs to a request that was sent
    intro hc
    obtain ⟨e, he, rfl⟩ := List.mem_map.mp hc
    rcases List.mem_append.mp he with he | he
    · obtain ⟨i, request, hi, hcorr, -⟩ := hinv.place he
      rw [hcorr]
      exact List.mem_map_of_mem (List.mem_of_getElem? hi)
    · exact (hsql e he).correlationId
  · -- and every request that was sent is stored
    intro hc
    obtain ⟨request, hrequest, rfl⟩ := List.mem_map.mp hc
    obtain ⟨i, hi⟩ := List.mem_iff_getElem?.mp hrequest
    exact List.mem_map_of_mem (List.mem_append_left _ (Sending.mem_events_of_request hi))

end Stored

/-! ### The order of the groups -/

/-- The groups of the stored events, by the clock of their earliest event and, where two clocks
are equal, by the row that was read first, come in the order of `correlationIds`. -/
def InSendOrder (events : List Event) (correlationIds : List String) : Prop :=
  correlationIds.Pairwise (List.SortsBefore (fun c => groupClock (groupOf events c))
    (events.map Event.correlationId).firstSeen)

instance (events : List Event) (correlationIds : List String) :
    Decidable (InSendOrder events correlationIds) := by
  unfold InSendOrder
  infer_instance

/-- Correlation numbers the groups in the order in which the requests were sent exactly when the
stored events are in that order. -/
theorem firstSeen_correlate_eq_iff {correlationIds : List String}
    (hperm : ((events.map Event.correlationId).firstSeen).Perm correlationIds) :
    ((correlate events).map Event.correlationId).firstSeen = correlationIds ↔
      InSendOrder events correlationIds := by
  rw [firstSeen_correlate, List.sortBy_eq_iff _ (List.nodup_firstSeen _)]
  exact and_iff_right hperm.symm

/-- A list is an arrangement of distinct elements when each stands at its place. -/
theorem eq_of_idxOf {l l' : List String} (hperm : l.Perm l')
    (h : ∀ (i : ℕ) (c : String), l'[i]? = some c → l.idxOf c = i) : l = l' := by
  refine List.ext_getElem? fun i => ?_
  cases hi : l'[i]? with
  | none =>
    rw [List.getElem?_eq_none_iff] at hi ⊢
    rwa [hperm.length_eq]
  | some c =>
    have hmem : c ∈ l := hperm.mem_iff.mpr (List.mem_of_getElem? hi)
    have hidx := List.getElem?_idxOf hmem
    rwa [h i c hi] at hidx

/-! ### The links -/

/-- The `i`-th request of the source is linked to the `i`-th request that was sent, and the
response of the one, the first in its group, to the reply to the other. -/
structure LinksSent (source : List Event) (st : Sending) (links : Dict String String) : Prop where
  request : ∀ (i : ℕ) (original : Event), (requestsOf source)[i]? = some original →
    ∃ sent, st.requests[i]? = some sent ∧ links.get? original.eventId = some sent.eventId
  response : ∀ (i : ℕ) (original response : Event), (requestsOf source)[i]? = some original →
    FirstInSlot source response → response.eventType = .httpResponse →
      response.correlationId = original.correlationId →
        ∃ reply, st.replies.get? i = some reply ∧
          links.get? response.eventId = some reply.eventId

section Links

variable {source : Recording} {s : Store} {sql : List Event}

/-- The run and what was stored of it, as `linksSent_iff` takes them together. -/
structure ReplayedSource (source : Recording) (target : HttpTarget) (payloads : List Payload)
    (st : Sending) (sql : List Event) (s : Store) : Prop where
  finished : Finished source.events
  nodup : (source.events.map Event.eventId).Nodup
  led : RequestLed source.events
  length : payloads.length = (requestsOf source.events).length
  inv : st.Inv target payloads
  done : st.Done payloads
  streamed : ∀ e ∈ sql, IsStreamed st e
  stored : StoredRun s target.recordingId st sql

/-- An event of the source and one of the run, both first of their slots, are linked when the
event of the run belongs to the group of the same number. -/
theorem ReplayedSource.link_iff (h : ReplayedSource source target payloads st sql s)
    (order : RowOrder) {i : ℕ} {original e sent : Event}
    (hi : (requestsOf source.events)[i]? = some original) (he : FirstInSlot source.events e)
    (hc : e.correlationId = original.correlationId) (hsent : sent ∈ st.events)
    (htype : e.eventType = sent.eventType) :
    (linkStreams source.events (correlate (s.eventsFor order target.recordingId))).get?
        e.eventId = some sent.eventId ↔
      groupNumber (correlate (s.eventsFor order target.recordingId)) sent.correlationId = i := by
  obtain ⟨r, hr, htag⟩ := h.stored.exists_firstInSlot h.inv h.streamed order hsent
  simp only [tag, Prod.mk.injEq] at htag
  obtain ⟨hid, hcorr, hkind⟩ := htag
  have hnd := (map_eventId_correlate_perm (s.eventsFor order target.recordingId)).nodup_iff.mpr
    (s.nodup_eventsFor order target.recordingId)
  -- `link_streams` pairs the first of a slot with the first of the slot of the same group
  rw [← hid, ← hcorr,
    get?_linkStreams_of_first h.finished.pairwise_sequence (finished_correlate _).pairwise_sequence
      h.nodup hnd he hr (htype.trans hkind.symm),
    hc, h.led.groupNumber_eq h.finished hi]
  exact eq_comm

/-- A request of the source is linked to the request sent at its place when that request leads the
group of the same number. -/
theorem ReplayedSource.request_link_iff (h : ReplayedSource source target payloads st sql s)
    (order : RowOrder) {i : ℕ} {original sent : Event}
    (hi : (requestsOf source.events)[i]? = some original) (hsent : st.requests[i]? = some sent) :
    (linkStreams source.events (correlate (s.eventsFor order target.recordingId))).get?
        original.eventId = some sent.eventId ↔
      groupNumber (correlate (s.eventsFor order target.recordingId)) sent.correlationId = i := by
  have hmem := List.mem_of_getElem? hi
  refine h.link_iff order hi (h.led.firstInSlot hmem) rfl
    (Sending.mem_events_of_request hsent) ?_
  obtain ⟨payload, -, hrequest⟩ := h.inv.request i sent hsent
  rw [hrequest.eventType]
  exact of_decide_eq_true (List.mem_filter.mp hmem).2

/-- Each request of the source has been sent and answered. -/
theorem ReplayedSource.exists_reply (h : ReplayedSource source target payloads st sql s)
    {i : ℕ} {original : Event} (hi : (requestsOf source.events)[i]? = some original) :
    ∃ sent reply, st.requests[i]? = some sent ∧ st.replies.get? i = some reply ∧
      Sending.IsReply target sent reply := by
  obtain ⟨hlt, -⟩ := List.getElem?_eq_some_iff.mp hi
  have hkey := h.done i (h.length ▸ hlt)
  cases hget : st.replies.get? i with
  | none => exact absurd hkey (Dict.get?_eq_none_iff.mp hget)
  | some reply =>
    obtain ⟨sent, hsent, hanswer⟩ := h.inv.reply i reply hget
    exact ⟨sent, reply, hsent, rfl, hanswer⟩

/-- Each request that was sent is that of a request of the source. -/
theorem ReplayedSource.exists_original (h : ReplayedSource source target payloads st sql s)
    {i : ℕ} {sent : Event} (hsent : st.requests[i]? = some sent) :
    ∃ original, (requestsOf source.events)[i]? = some original := by
  obtain ⟨payload, hpayload, -⟩ := h.inv.request i sent hsent
  obtain ⟨hlt, -⟩ := List.getElem?_eq_some_iff.mp hpayload
  exact ⟨_, List.getElem?_eq_getElem (h.length ▸ hlt)⟩

/-- The groups are numbered by the order in which they are first seen. -/
theorem Sending.Inv.groupNumber_of_firstSeen {events : List Event} (h : st.Inv target payloads)
    (hseen : (events.map Event.correlationId).firstSeen = st.correlationIds) {i : ℕ} {sent : Event}
    (hsent : st.requests[i]? = some sent) : groupNumber events sent.correlationId = i := by
  obtain ⟨hlt, hget⟩ := List.getElem?_eq_some_iff.mp (getElem?_correlationIds hsent)
  rw [groupNumber, hseen, ← hget]
  exact h.nodup.idxOf_getElem i hlt

/-- The links are right when the groups of the run are numbered as their requests were sent. -/
theorem ReplayedSource.linksSent_iff_groups (h : ReplayedSource source target payloads st sql s)
    (order : RowOrder) :
    LinksSent source.events st
        (linkStreams source.events (correlate (s.eventsFor order target.recordingId))) ↔
      ((correlate (s.eventsFor order target.recordingId)).map Event.correlationId).firstSeen =
        st.correlationIds := by
  constructor
  · intro hlinks
    have hperm : ((correlate (s.eventsFor order target.recordingId)).map
        Event.correlationId).firstSeen.Perm st.correlationIds := by
      rw [firstSeen_correlate]
      exact (List.sortBy_perm _ _).trans (h.stored.firstSeen_perm h.inv h.streamed order)
    refine eq_of_idxOf hperm fun i c hi => ?_
    rw [Sending.correlationIds, List.getElem?_map] at hi
    obtain ⟨sent, hsent, rfl⟩ := Option.map_eq_some_iff.mp hi
    -- the link of the `i`-th request of the source gives the number of the group of `sent`
    obtain ⟨original, horiginal⟩ := h.exists_original hsent
    obtain ⟨sent', hsent', hlink⟩ := hlinks.request i original horiginal
    obtain rfl := Option.some.inj (hsent.symm.trans hsent')
    exact (h.request_link_iff order horiginal hsent).mp hlink
  · intro hseen
    constructor
    · intro i original hi
      obtain ⟨sent, reply, hsent, -, -⟩ := h.exists_reply hi
      have hnumber := h.inv.groupNumber_of_firstSeen hseen hsent
      exact ⟨sent, hsent, (h.request_link_iff order hi hsent).mpr hnumber⟩
    · -- a response shares the group of its request, and so does a reply
      intro i original response hi hfirst htype hc
      obtain ⟨sent, reply, hsent, hget, hanswer⟩ := h.exists_reply hi
      have hlink := h.link_iff order hi hfirst hc (h.inv.mem_events_of_reply hget)
      refine ⟨reply, hget, (hlink ?_).mpr ?_⟩
      · rw [htype, hanswer.eventType]
      · rw [hanswer.correlationId]
        exact h.inv.groupNumber_of_firstSeen hseen hsent

end Links

/-- **Links point at the request that was re-sent.** For every finished source whose groups are
led by their one request, every concurrency, every order in which the requests complete and every
SQL stream: after the run is correlated, the links are right exactly when the stored events are in
the order in which the requests were sent. -/
theorem linksSent_iff {source run : Recording} (hfin : Finished source.events)
    (hids : (source.events.map Event.eventId).Nodup) (hled : RequestLed source.events)
    {codec : Codec} {target : HttpTarget} {concurrency : ℤ} {supply : Supply}
    {subs : SubstitutionEngine} {labels : List SendStep} {st : Sending}
    (hrun : Machine.run (Sending.step codec target (batchSize concurrency)
      (sentPayloads supply subs source)) {} labels = some st)
    (hdone : st.Done (sentPayloads supply subs source)) {sql : List Event}
    (hsql : ∀ e ∈ sql, IsStreamed st e) {s s' : Store}
    (hstored : StoredRun s target.recordingId st sql) {order : RowOrder}
    (hfinish : (finishRecording order target.recordingId).run s = (.ok run, s')) :
    LinksSent source.events st (linkStreams source.events run.events) ↔
      InSendOrder (s.eventsFor order target.recordingId) st.correlationIds := by
  have hinv := Sending.inv_run hrun
  have h : ReplayedSource source target (sentPayloads supply subs source) st sql s :=
    ⟨hfin, hids, hled, by simp [sentPayloads], hinv, hdone, hsql, hstored⟩
  obtain ⟨row, path, -, -, -, rfl, -⟩ := exists_of_run_finishRecording hfinish
  show LinksSent _ _ (linkStreams _ (correlate _)) ↔ _
  rw [h.linksSent_iff_groups order]
  exact firstSeen_correlate_eq_iff (hstored.firstSeen_perm hinv hsql order)

/-! ### Two requests, one query -/

/-- A source of two requests with their responses. -/
def twoRequests : Recording where
  recordingId := "rec_1"
  status := .completed
  events := correlate
    [.brief .httpRequest "evt_a" "corr_a" 0, .brief .httpResponse "evt_b" "corr_a" 1,
      .brief .httpRequest "evt_c" "corr_b" 2, .brief .httpResponse "evt_d" "corr_b" 3]

/-- One after the other, at the times `10` to `40`. -/
def twoSends : List SendStep :=
  [.start "1" "1" 10, .finish 0 (.error "") 10 "2" 20, .start "2" "3" 30,
    .finish 1 (.error "") 10 "4" 40]

/-- The query of the second request, at a time of the target's clock. -/
def secondQuery (timestampNs : ℤ) : Event :=
  { Event.brief .pgQuery "evt_q" "corr_2" 0 with
    recordingId := "rpl_1"
    timestampNs := timestampNs }

/-- The target that is replayed against. -/
def sampleTarget : HttpTarget := .open "http://sut" "rpl_1" "sut"

/-- No substitution. -/
def noSubstitution : SubstitutionEngine := { mapping := [], auto := .off }

/-- A supply that is not asked. -/
def noSupply : Supply := ⟨fun _ => "", fun _ => "", fun _ => 0⟩

/-- A store that holds a replay recording with these events. -/
def storedEvents (events : List Event) : Store :=
  ((appendEvents "rpl_1" events).run
    (Store.withRecording { recordingId := "rpl_1", kind := .replay, status := .recording })).2

/-- The run of the two requests. -/
def twoSent : Sending :=
  (Machine.run (Sending.step sampleCodec sampleTarget (batchSize 1)
    (sentPayloads noSupply noSubstitution twoRequests)) {} twoSends).getD {}

theorem run_twoSends :
    Machine.run (Sending.step sampleCodec sampleTarget (batchSize 1)
      (sentPayloads noSupply noSubstitution twoRequests)) {} twoSends = some twoSent := rfl

theorem done_twoSent : twoSent.Done (sentPayloads noSupply noSubstitution twoRequests) := by
  have hdone : ∀ i < 2, i ∈ twoSent.replies.keys := by decide
  exact hdone

theorem isStreamed_secondQuery (timestampNs : ℤ) :
    ∀ e ∈ [secondQuery timestampNs], IsStreamed twoSent e := by
  intro e he
  obtain rfl := List.mem_singleton.mp he
  have hids : "corr_2" ∈ twoSent.correlationIds := by decide
  exact ⟨.inl rfl, hids⟩

theorem requestLed_twoRequests : RequestLed twoRequests.events := by
  intro c hc
  have hids : c ∈ ["corr_a", "corr_b"] := by
    rw [← List.mem_firstSeen] at hc
    exact hc
  simp only [List.mem_cons, List.not_mem_nil, or_false] at hids
  rcases hids with rfl | rfl
  · exact ⟨_, _, rfl, rfl, by decide⟩
  · exact ⟨_, _, rfl, rfl, by decide⟩

theorem storedRun_twoSent (timestampNs : ℤ) :
    StoredRun (storedEvents (twoSent.events ++ [secondQuery timestampNs])) "rpl_1" twoSent
      [secondQuery timestampNs] :=
  List.Perm.of_eq rfl

/-- A query of the second request after that request changes nothing. -/
theorem linksSent_two :
    ∃ run s', (finishRecording .bySequence "rpl_1").run
        (storedEvents (twoSent.events ++ [secondQuery 35])) = (.ok run, s') ∧
      LinksSent twoRequests.events twoSent (linkStreams twoRequests.events run.events) := by
  have hfinish : ∃ run s', (finishRecording .bySequence "rpl_1").run
      (storedEvents (twoSent.events ++ [secondQuery 35])) = (.ok run, s') := ⟨_, _, rfl⟩
  obtain ⟨run, s', hfinish⟩ := hfinish
  refine ⟨run, s', hfinish, ?_⟩
  refine (linksSent_iff (finished_correlate _) (by decide) requestLed_twoRequests run_twoSends
    done_twoSent (isStreamed_secondQuery 35) (storedRun_twoSent 35) hfinish).mpr ?_
  decide

/-- A query of the second request that the target stamps early exchanges the two. -/
theorem not_linksSent_early_query :
    ¬∀ (source run : Recording) (codec : Codec) (target : HttpTarget) (concurrency : ℤ)
      (supply : Supply) (subs : SubstitutionEngine) (labels : List SendStep) (st : Sending)
      (sql : List Event) (s s' : Store) (order : RowOrder),
      Finished source.events → (source.events.map Event.eventId).Nodup →
      RequestLed source.events →
      Machine.run (Sending.step codec target (batchSize concurrency)
        (sentPayloads supply subs source)) {} labels = some st →
      st.Done (sentPayloads supply subs source) → (∀ e ∈ sql, IsStreamed st e) →
      StoredRun s target.recordingId st sql →
      (finishRecording order target.recordingId).run s = (.ok run, s') →
        LinksSent source.events st (linkStreams source.events run.events) := by
  intro h
  have hfinish : ∃ run s', (finishRecording .bySequence "rpl_1").run
      (storedEvents (twoSent.events ++ [secondQuery 5])) = (.ok run, s') ∧
        (linkStreams twoRequests.events run.events).get? "evt_a" = some "evt_3" :=
    ⟨_, _, rfl, by decide⟩
  obtain ⟨run, s', hfinish, hlink⟩ := hfinish
  have hlinks := h twoRequests run sampleCodec sampleTarget 1 noSupply noSubstitution twoSends
    twoSent [secondQuery 5] _ s' .bySequence (finished_correlate _) (by decide)
    requestLed_twoRequests run_twoSends done_twoSent (isStreamed_secondQuery 5)
    (storedRun_twoSent 5) hfinish
  obtain ⟨sent, hsent, hget⟩ := hlinks.request 0 _ rfl
  have hid : sent.eventId = "evt_1" := by
    have hfirst : twoSent.requests[0]?.map Event.eventId = some "evt_1" := by decide
    rw [hsent] at hfirst
    exact Option.some.inj hfirst
  have heq : some "evt_3" = some "evt_1" := by rw [← hlink, ← hid]; exact hget
  exact absurd heq (by decide)

end InfraReplay
