import InfraReplay.Agent.Middleware

/-!
# What has landed when a response leaves

A request's final message waits for the request's own flush. That flush posts what it found in the
queue, and the queue is shared: when another request has drained it in the meantime, a request
finds nothing to post and its response leaves while its events are still under way.

`CaptureAgent.Calm` is the condition on a step under which this does not happen, and
`CaptureAgent.landed_of_calm` says that then every event of a request has been accepted when its
response leaves.
-/

namespace InfraReplay

open Python

namespace CaptureAgent

/-- The events that some flush holds. -/
def held (ag : CaptureAgent) : List Event := ag.calls.flatMap Call.held

/-- The ingest endpoint has accepted every event queued in the context of the `i`-th request. -/
def Landed (ag : CaptureAgent) (i : ℕ) : Prop :=
  ∀ call, ag.calls[i]? = some call → ∀ e ∈ call.queued, e ∈ ag.acknowledged

/-- A step that keeps a request's events with the request: nothing is queued while its final
message waits, no other flush holds an event of it when that message is sent, and a post can be
encoded and is accepted. -/
def Calm (encodes : Value → Bool) (ag : CaptureAgent) : AgentStep → Prop
  | .statement i _ => ∀ call, ag.calls[i]? = some call → call.flush = none
  | .send i message =>
    message.isFinal = true → ∀ call, ag.calls[i]? = some call → ∀ e ∈ call.queued, e ∉ ag.held
  | .post i =>
    ∀ call, ag.calls[i]? = some call → ∀ f, call.flush = some f →
      ∀ p ∈ f.batches.head?, encodes (batchDocument p.2) = true
  | .answered _ accepted => accepted = true
  | _ => True

variable {encodes : Value → Bool} {ag ag' : CaptureAgent} {i : ℕ} {call new : Call} {f : Flush}
  {e : Event}

/-! ### Where events are -/

/-- Without a flush nothing is held. -/
@[simp]
theorem held_of_flush_none (h : call.flush = none) : call.held = [] := by
  rw [Call.held, h]
  rfl

@[simp]
theorem held_of_flush (h : call.flush = some f) : call.held = f.events := by
  rw [Call.held, h]
  simp

theorem mem_held : e ∈ ag.held ↔ ∃ call ∈ ag.calls, e ∈ call.held := List.mem_flatMap

/-- A request of the new state is the one that went on, or one of the others. -/
theorem mem_calls_setCall (h : call ∈ (ag.setCall i new).calls) : call = new ∨ call ∈ ag.calls :=
  (List.mem_or_eq_of_mem_set h).symm

/-- What is held stays held when one request goes on, apart from what that request held. -/
theorem held_setCall (hcall : ag.calls[i]? = some call) (he : e ∈ ag.held) :
    e ∈ (ag.setCall i new).held ∨ e ∈ call.held := by
  obtain ⟨other, hother, he⟩ := mem_held.mp he
  obtain ⟨j, hj⟩ := List.mem_iff_getElem?.mp hother
  by_cases hij : i = j
  · -- the request that went on
    subst hij
    obtain rfl := Option.some.inj (hcall.symm.trans hj)
    exact .inr he
  · refine .inl (mem_held.mpr ⟨other, ?_, he⟩)
    exact List.mem_iff_getElem?.mpr ⟨j, (List.getElem?_set_ne hij).trans hj⟩

/-- What the request that goes on holds is held. -/
theorem held_setCall_self (hcall : ag.calls[i]? = some call) (he : e ∈ new.held) :
    e ∈ (ag.setCall i new).held := by
  obtain ⟨hlt, -⟩ := List.getElem?_eq_some_iff.mp hcall
  exact mem_held.mpr ⟨new, List.mem_set hlt new, he⟩

/-- A drain takes the whole queue. -/
theorem mem_events_drained {queue : List Event} {message : Message} :
    e ∈ (Flush.mk message none (Dict.collect Event.recordingId queue)).events ↔ e ∈ queue := by
  have hperm := Dict.flatten_collect_perm Event.recordingId queue
  rw [Flush.events, List.flatMap_def]
  exact hperm.mem_iff

/-- The first batch of a flush and the others are what it holds. -/
theorem events_posting_batches {recordingId : String} {batch : List Event}
    {rest : Dict String (List Event)} (hposting : f.posting = none)
    (hbatches : f.batches = (recordingId, batch) :: rest) :
    ({ f with posting := some (recordingId, batch), batches := rest } : Flush).events =
      f.events := by
  rw [Flush.events, Flush.events, hposting, hbatches]
  rfl

/-- What is left after an answer. -/
theorem events_of_posting {recordingId : String} {batch : List Event}
    (hposting : f.posting = some (recordingId, batch)) :
    f.events = batch ++ ({ f with posting := none } : Flush).events := by
  rw [Flush.events, Flush.events, hposting]
  simp

/-! ### Runs of calm steps -/

/-- What holds after any number of calm steps. -/
structure Kept (ag : CaptureAgent) : Prop where
  /-- An event queued so far is still queued, or held by a flush, or accepted. -/
  placed : ∀ call ∈ ag.calls, ∀ e ∈ call.queued,
    e ∈ ag.plugin.queue ∨ e ∈ ag.held ∨ e ∈ ag.acknowledged
  /-- While the final message of a request waits, its events are held by its own flush or
  accepted. -/
  own : ∀ call ∈ ag.calls, call.flush ≠ none → ∀ e ∈ call.queued,
    e ∈ call.held ∨ e ∈ ag.acknowledged

theorem kept_start (service : String) : (start service).Kept where
  placed := by simp [start]
  own := by simp [start]

/-- A request comes in. -/
theorem Kept.request (h : ag.Kept) (context : Option CaptureContext) :
    ({ ag with calls := ag.calls ++ [{ context := context }] } : CaptureAgent).Kept where
  placed other hother e he := by
    rcases List.mem_append.mp hother with hother | hnew
    · refine (h.placed other hother e he).imp_right (Or.imp_left fun hheld => ?_)
      rw [held, List.flatMap_append]
      exact List.mem_append_left _ hheld
    · obtain rfl := List.mem_singleton.mp hnew
      cases he
  own other hother hflush e he := by
    rcases List.mem_append.mp hother with hother | hnew
    · exact h.own other hother hflush e he
    · obtain rfl := List.mem_singleton.mp hnew
      cases he

/-- One request goes on, and keeps what it held or has it accepted. -/
theorem Kept.setCall (h : ag.Kept) (hcall : ag.calls[i]? = some call)
    (hcalls : ag'.calls = (ag.setCall i new).calls)
    (hacknowledged : ag.acknowledged ⊆ ag'.acknowledged)
    (hqueue : ∀ e ∈ ag.plugin.queue, e ∈ ag'.plugin.queue ∨ e ∈ new.held)
    (hheld : ∀ e ∈ call.held, e ∈ new.held ∨ e ∈ ag'.acknowledged)
    (hplaced : ∀ e ∈ new.queued, e ∈ call.queued ∨ e ∈ ag'.plugin.queue)
    (hown : new.flush ≠ none → ∀ e ∈ new.queued, e ∈ new.held ∨ e ∈ ag'.acknowledged) :
    ag'.Kept := by
  have hheld' : ag'.held = (ag.setCall i new).held := by
    rw [held, held, hcalls]
  -- an event that had a place has one
  have hstays : ∀ e, e ∈ ag.plugin.queue ∨ e ∈ ag.held ∨ e ∈ ag.acknowledged →
      e ∈ ag'.plugin.queue ∨ e ∈ ag'.held ∨ e ∈ ag'.acknowledged := by
    rintro e (he | he | he)
    · refine (hqueue e he).imp_right fun hnew => .inl ?_
      rw [hheld']
      exact held_setCall_self hcall hnew
    · have hset : e ∈ (ag.setCall i new).held ∨ e ∈ call.held := held_setCall hcall he
      rcases hset with hother | hmine
      · exact .inr (.inl (hheld' ▸ hother))
      · refine .inr ((hheld e hmine).imp_left fun hnew => ?_)
        rw [hheld']
        exact held_setCall_self hcall hnew
    · exact .inr (.inr (hacknowledged he))
  constructor
  · -- placed: an event of the request was there before or is queued by this step
    intro other hother e he
    rw [hcalls] at hother
    rcases mem_calls_setCall hother with rfl | hother
    · rcases hplaced e he with hold | hqueued
      · exact hstays e (h.placed call (List.mem_of_getElem? hcall) e hold)
      · exact .inl hqueued
    · exact hstays e (h.placed other hother e he)
  · -- own: the other requests hold what they held
    intro other hother hflush e he
    rw [hcalls] at hother
    rcases mem_calls_setCall hother with rfl | hother
    · exact hown hflush e he
    · exact (h.own other hother hflush e he).imp_right fun hacc => hacknowledged hacc

/-- A statement runs while no final message of its request waits. -/
theorem Kept.ran (h : ag.Kept) (hcall : ag.calls[i]? = some call) (hidle : call.flush = none)
    (s : Statement) : (ag.ran i call s).Kept := by
  refine h.setCall hcall rfl (List.Subset.refl _) ?_ ?_ ?_ ?_
  · exact fun e he => .inl (List.mem_append_left _ he)
  · simp [hidle]
  · exact fun e he => (List.mem_append.mp he).imp_right (List.mem_append_right _)
  · exact fun hflush => absurd hidle hflush

/-- A request drains the queue, and no other flush holds an event of it. -/
theorem Kept.drained (h : ag.Kept) (hcall : ag.calls[i]? = some call) (hflush : call.flush = none)
    (hfree : ∀ e ∈ call.queued, e ∉ ag.held) (message : Message) :
    (ag.drained i call message).Kept := by
  let taken : Flush :=
    { message := message, batches := Dict.collect Event.recordingId ag.plugin.queue }
  have hdrain : ∀ e ∈ ag.plugin.queue, e ∈ ({ call with flush := some taken } : Call).held := by
    intro e he
    rw [held_of_flush (f := taken) rfl]
    exact mem_events_drained.mpr he
  refine h.setCall hcall rfl (List.Subset.refl _) (fun e he => .inr (hdrain e he)) ?_ ?_ ?_
  · simp [hflush]
  · exact fun e he => .inl he
  · -- nobody else holds an event of the request, so the drain has found those not accepted
    intro _ e he
    rcases h.placed _ (List.mem_of_getElem? hcall) e he with hqueue | hheld | hacc
    · exact .inl (hdrain e hqueue)
    · exact absurd hheld (hfree e he)
    · exact .inr hacc

/-- A message goes out, and nothing is held for it. -/
theorem Kept.passed (h : ag.Kept) (hcall : ag.calls[i]? = some call) (hheld : call.held = [])
    (message : Message) : (ag.passed i call message).Kept := by
  refine h.setCall hcall rfl (List.Subset.refl _) (fun e he => .inl he) ?_ ?_ ?_
  · simp [hheld]
  · exact fun e he => .inl he
  · exact fun hnone => absurd rfl hnone

/-- A batch goes from the list to the wire, and the flush holds what it held. -/
theorem Kept.posted (h : ag.Kept) (hcall : ag.calls[i]? = some call) (hflush : call.flush = some f)
    {recordingId : String} {batch : List Event} {rest : Dict String (List Event)}
    (hposting : f.posting = none) (hbatches : f.batches = (recordingId, batch) :: rest) :
    (ag.posted i call f recordingId batch rest).Kept := by
  let next : Flush := { f with posting := some (recordingId, batch), batches := rest }
  have hheld : ∀ e ∈ call.held, e ∈ ({ call with flush := some next } : Call).held := by
    intro e he
    rw [held_of_flush hflush, ← events_posting_batches hposting hbatches] at he
    rw [held_of_flush (f := next) rfl]
    exact he
  refine h.setCall hcall rfl (List.Subset.refl _) (fun e he => .inl he) ?_ ?_ ?_
  · exact fun e he => .inl (hheld e he)
  · exact fun e he => .inl he
  · intro _ e he
    refine (h.own _ (List.mem_of_getElem? hcall) ?_ e he).imp_left (hheld e)
    simp [hflush]

/-- A batch is no longer held once it has been accepted. -/
theorem Kept.settled (h : ag.Kept) (hcall : ag.calls[i]? = some call)
    (hflush : call.flush = some f) {recordingId : String} {batch : List Event}
    (hposting : f.posting = some (recordingId, batch)) : (ag.settled i call f batch true).Kept := by
  let next : Flush := { f with posting := none }
  have hheld : ∀ e ∈ call.held,
      e ∈ ({ call with flush := some next } : Call).held ∨ e ∈ ag.acknowledged ++ batch := by
    intro e he
    rw [held_of_flush hflush, events_of_posting hposting, List.mem_append] at he
    rw [held_of_flush (f := next) rfl]
    exact he.symm.imp_right (List.mem_append_right _)
  refine h.setCall hcall rfl (List.subset_append_left _ _) (fun e he => .inl he) hheld ?_ ?_
  · exact fun e he => .inl he
  · intro _ e he
    rcases h.own _ (List.mem_of_getElem? hcall) (by simp [hflush]) e he with hmine | hacc
    · exact hheld e hmine
    · exact .inr (List.mem_append_left _ hacc)

/-- A flush with nothing on the wire and nothing left holds nothing. -/
theorem held_of_flush_over (hflush : call.flush = some f) (hposting : f.posting = none)
    (hbatches : f.batches = []) : call.held = [] := by
  rw [held_of_flush hflush, Flush.events, hposting, hbatches]
  rfl

/-- A calm step keeps every event in its place. -/
theorem Kept.step {l : AgentStep} (h : ag.Kept) (hcalm : ag.Calm encodes l)
    (hreach : ∀ i, l ≠ .failed i) (hstep : ag.step encodes l = some ag') : ag'.Kept := by
  cases next_of_step hstep with
  | request scopeType headers => exact h.request _
  | statement s hcall => exact h.ran hcall (hcalm _ hcall) s
  | drained hcall hflush hfinal hbound => exact h.drained hcall hflush (hcalm hfinal _ hcall) _
  | passed hcall hflush hplain => exact h.passed hcall (held_of_flush_none hflush) _
  | posted hcall hflush hposting hbatches hencodes => exact h.posted hcall hflush hposting hbatches
  | raised hcall hflush hposting hbatches hencodes =>
    -- a calm post can be encoded
    have hyes := hcalm _ hcall _ hflush _ (by rw [hbatches]; rfl)
    rw [hencodes] at hyes
    cases hyes
  | @settled i call f recordingId batch accepted hcall hflush hposting =>
    obtain rfl : accepted = true := hcalm
    exact h.settled hcall hflush hposting
  | gaveUp hcall hflush hposting => exact absurd rfl (hreach _)
  | forwarded hcall hflush hposting hbatches =>
    exact h.passed hcall (held_of_flush_over hflush hposting hbatches) _

/-- Every event keeps its place over a run of calm steps. -/
theorem kept_run {service : String} {labels : List AgentStep}
    (hreach : ∀ i, AgentStep.failed i ∉ labels)
    (hcalm : Machine.Along (step encodes) (Calm encodes) (start service) labels)
    (hrun : Machine.run (step encodes) (start service) labels = some ag) : ag.Kept := by
  have hnot : ∀ l ∈ labels, ∀ i, l ≠ .failed i := by
    rintro l hl i rfl
    exact hreach i hl
  exact Machine.invariant (fun _ _ _ h hok hstep => h.step hok.1 hok.2 hstep)
    (kept_start service) (hcalm.and_mem hnot) hrun

/-- In a run whose steps are calm, with every post reaching the endpoint: when the final message of
a request goes out, every event queued in its context has been accepted. -/
theorem landed_of_calm {service : String} {labels : List AgentStep}
    (hreach : ∀ i, AgentStep.failed i ∉ labels)
    (hcalm : Machine.Along (step encodes) (Calm encodes) (start service) labels)
    (hrun : Machine.run (step encodes) (start service) labels = some ag)
    (hforward : (ag.step encodes (.forward i)).isSome) : ag.Landed i := by
  obtain ⟨ag', hstep⟩ := Option.isSome_iff_exists.mp hforward
  intro call hcall e he
  cases next_of_step hstep with
  | @forwarded _ waiting f hwaiting hflush hposting hbatches =>
    obtain rfl := Option.some.inj (hcall.symm.trans hwaiting)
    have hempty : call.held = [] := held_of_flush_over hflush hposting hbatches
    -- the flush is over, so what it held has been accepted
    have hkept := kept_run hreach hcalm hrun
    have hown := hkept.own call (List.mem_of_getElem? hcall) (by simp [hflush]) e he
    rw [hempty] at hown
    exact hown.resolve_left List.not_mem_nil

/-- The headers the proxy puts on a request. -/
def boundHeaders : Headers :=
  [("host", "127.0.0.1:3000"), (recordingHeader, "rec_1"), (correlationHeader, "corr_1")]

/-- A statement of the demo shop. -/
def selectStock : Statement where
  sql := "SELECT stock FROM inventory WHERE sku = ?"
  parameters := .positional [.str "coffee-mug"]
  started := 10
  ended := 12
  queryHex := "0123456789ab"
  resultHex := "ba9876543210"

/-- The last message of a response. -/
def lastMessage : Message where
  type := "http.response.body"

/-- One request: a statement, and the response after its events. -/
def oneRequest : List AgentStep :=
  [.request "http" boundHeaders, .statement 0 selectStock, .send 0 lastMessage, .post 0,
    .answered 0 true]

/-- The second request has run a statement when the first one sends its final message: the flush
of the first takes the events, and the second sends its own final message while that post is
unanswered. -/
def sharedDrain : List AgentStep :=
  [.request "http" boundHeaders, .request "http" boundHeaders, .statement 1 selectStock,
    .send 0 lastMessage, .post 0, .send 1 lastMessage]

/-- The steps of one request are calm. -/
theorem calm_oneRequest :
    Machine.Along (step fun _ => true) (Calm fun _ => true) (start "demo_shop") oneRequest := by
  refine And.intro trivial (And.intro ?_ (And.intro ?_ (And.intro ?_ (And.intro rfl trivial))))
  · intro call hcall
    obtain rfl := Option.some.inj hcall
    rfl
  · -- no flush has begun
    intro _ call _ e _ he
    obtain ⟨other, hother, he⟩ := mem_held.mp he
    obtain rfl := List.mem_singleton.mp hother
    cases he
  · exact fun _ _ _ _ _ _ => rfl

theorem landed_oneRequest :
    ∃ ag call, Machine.run (step fun _ => true) (start "demo_shop") oneRequest = some ag ∧
      ag.calls[0]? = some call ∧ call.queued.length = 2 ∧ ag.Landed 0 := by
  obtain ⟨ag, hrun⟩ :
      ∃ ag, Machine.run (step fun _ => true) (start "demo_shop") oneRequest = some ag := ⟨_, rfl⟩
  have hlength : ((Machine.run (step fun _ => true) (start "demo_shop") oneRequest).bind
      fun ag => ag.calls[0]?).map (fun call => call.queued.length) = some 2 := rfl
  have hforward : ((Machine.run (step fun _ => true) (start "demo_shop") oneRequest).bind
      fun ag => ag.step (fun _ => true) (.forward 0)).isSome := rfl
  rw [hrun] at hlength hforward
  obtain ⟨call, hcall, hlength⟩ := Option.map_eq_some_iff.mp hlength
  refine ⟨ag, call, hrun, hcall, hlength, landed_of_calm ?_ calm_oneRequest hrun hforward⟩
  simp [oneRequest]

/-- As soon as two requests overlap, a response can leave before its events have landed. -/
theorem not_landed_sharedDrain :
    ¬ ∀ (labels : List AgentStep) (ag : CaptureAgent) (i : ℕ),
      (∀ j, AgentStep.failed j ∉ labels) → (∀ j, AgentStep.answered j false ∉ labels) →
        Machine.run (step fun _ => true) (start "demo_shop") labels = some ag →
          (ag.step (fun _ => true) (.forward i)).isSome → ag.Landed i := by
  intro h
  obtain ⟨ag, hrun⟩ :
      ∃ ag, Machine.run (step fun _ => true) (start "demo_shop") sharedDrain = some ag := ⟨_, rfl⟩
  have hqueued : ((Machine.run (step fun _ => true) (start "demo_shop") sharedDrain).bind
      fun ag => ag.calls[1]?).map (fun call => call.queued.length) = some 2 := rfl
  have hnone : (Machine.run (step fun _ => true) (start "demo_shop") sharedDrain).map
      CaptureAgent.acknowledged = some [] := rfl
  have hforward : ((Machine.run (step fun _ => true) (start "demo_shop") sharedDrain).bind
      fun ag => ag.step (fun _ => true) (.forward 1)).isSome := rfl
  rw [hrun] at hqueued hnone hforward
  obtain ⟨call, hcall, hlength⟩ := Option.map_eq_some_iff.mp hqueued
  have hlanded := h sharedDrain ag 1 (by simp [sharedDrain]) (by simp [sharedDrain]) hrun hforward
    call hcall
  -- two events are queued and none is accepted
  rw [Option.some.inj hnone] at hlanded
  rw [List.eq_nil_iff_forall_not_mem.mpr fun e he => List.not_mem_nil (hlanded e he)] at hlength
  cases hlength

end CaptureAgent

end InfraReplay
