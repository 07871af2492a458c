import InfraReplay.Agent.Middleware
import InfraReplay.Common.Pool
import Mathlib.Data.List.Flatten

/-!
# Where a captured event can go

A statement is attributed by the context of its request and by nothing else: its two events carry
the ids of that context into a queue that all requests share, any request may drain the queue, and
the batches are made by the recording id each event carries.

`CaptureAgent.Routed` follows the events from the queue to the posts. Relative to a log of what has
been queued, it says that every event is in one place, that a batch has events of one recording,
and that what a request posts to a recording comes in the order of the log
(`CaptureAgent.Routed.step`).
-/

namespace InfraReplay

open Python

/-- The batches that the flush of a call has not posted. -/
def Call.batches (call : Call) : Dict String (List Event) := call.flush.elim [] Flush.batches

namespace CaptureAgent

/-- The events that a step puts on the queue. -/
def queues (ag : CaptureAgent) : AgentStep → List Event
  | .statement i s => ag.calls[i]?.elim [] fun call => ag.plugin.captured s call.context
  | _ => []

/-- The two events of one statement that a request bound to `active` has executed. -/
def Executed (ag : CaptureAgent) (active : CaptureContext) (query result : Event) : Prop :=
  ∃ call ∈ ag.calls, call.context = some active ∧ query ∈ call.queued ∧ result ∈ call.queued ∧
    ∃ plugin s, query = PostgresCapturePlugin.queryEvent plugin active s ∧
      result = PostgresCapturePlugin.resultEvent plugin active s

/-- The event is one of the two events of a statement. -/
def Attributed (ag : CaptureAgent) (active : CaptureContext) (e : Event) : Prop :=
  ∃ query result, ag.Executed active query result ∧ (e = query ∨ e = result)

/-- The events that a request has posted to a recording, in the order of the posts. -/
def postedTo (ag : CaptureAgent) (i : ℕ) (recordingId : String) : List Event :=
  (ag.posts.filter fun p => p.call = i ∧ p.recordingId = recordingId).flatMap Post.events

/-- The events in batches that are not posted. -/
def waiting (ag : CaptureAgent) : List Event :=
  ag.calls.flatMap fun call => call.batches.flatMap Prod.snd

/-- Every event that is posted, or in a batch, or on the queue. -/
def known (ag : CaptureAgent) : List Event :=
  ag.posts.flatMap Post.events ++ ag.waiting ++ ag.plugin.queue

/-- The events that a request has posted to a recording, that its flush is going to post to it, and
that it could still take from the queue. -/
def lane (ag : CaptureAgent) (i : ℕ) (recordingId : String) : List Event :=
  ag.postedTo i recordingId ++
    ((ag.calls[i]?.elim [] Call.batches).filter fun b => b.1 = recordingId).flatMap Prod.snd ++
    ag.plugin.queue.filter fun e => e.recordingId = recordingId

/-- Where the events of the log are. -/
structure Routed (ag : CaptureAgent) (log : List Event) : Prop where
  numbered : log.Pairwise fun e e' => e.sequence < e'.sequence
  counted : ∀ e ∈ log, e.sequence < ag.plugin.sequence
  attributed : ∀ e ∈ log, ∃ active, ag.Attributed active e
  once : (ag.known.map Event.sequence).Nodup
  logged : ∀ e ∈ ag.known, e ∈ log
  batches : ∀ call ∈ ag.calls, ∀ b ∈ call.batches, ∀ e ∈ b.2, e.recordingId = b.1
  posts : ∀ p ∈ ag.posts, ∀ e ∈ p.events, e.recordingId = p.recordingId
  lanes : ∀ i recordingId, (ag.lane i recordingId).Sublist log

theorem routed_start (service : String) : (start service).Routed [] := by
  constructor <;> simp [start, known, waiting, lane, postedTo]

variable {ag ag' : CaptureAgent} {log : List Event} {i : ℕ} {call new : Call}
  {active : CaptureContext} {query result e : Event}

/-! ### Executed statements -/

/-- Every request is still there, with what was queued in its context. -/
def Extends (ag ag' : CaptureAgent) : Prop :=
  ∀ call ∈ ag.calls, ∃ call' ∈ ag'.calls, call'.context = call.context ∧
    call.queued ⊆ call'.queued

theorem Extends.setCall (hcall : ag.calls[i]? = some call) (hcalls : ag'.calls = ag.calls.set i new)
    (hcontext : new.context = call.context) (hqueued : call.queued ⊆ new.queued) :
    ag.Extends ag' := by
  intro other hother
  rw [hcalls]
  obtain ⟨hlt, -⟩ := List.getElem?_eq_some_iff.mp hcall
  obtain ⟨j, hj⟩ := List.mem_iff_getElem?.mp hother
  by_cases hij : i = j
  · subst hij
    obtain rfl := Option.some.inj (hcall.symm.trans hj)
    exact ⟨new, List.mem_set hlt new, hcontext, hqueued⟩
  · refine ⟨other, ?_, rfl, List.Subset.refl _⟩
    exact List.mem_iff_getElem?.mpr ⟨j, (List.getElem?_set_ne hij).trans hj⟩

/-- No step forgets what was queued. -/
theorem extends_step {encodes : Value → Bool} {l : AgentStep}
    (hstep : ag.step encodes l = some ag') : ag.Extends ag' := by
  cases next_of_step hstep with
  | request scopeType headers =>
    exact fun call hcall => ⟨call, List.mem_append_left _ hcall, rfl, List.Subset.refl _⟩
  | statement s hcall => exact .setCall hcall rfl rfl (List.subset_append_left _ _)
  | drained hcall hflush hfinal hbound => exact .setCall hcall rfl rfl (List.Subset.refl _)
  | passed hcall hflush hplain => exact .setCall hcall rfl rfl (List.Subset.refl _)
  | posted hcall hflush hposting hbatches hencodes =>
    exact .setCall hcall rfl rfl (List.Subset.refl _)
  | raised hcall hflush hposting hbatches hencodes =>
    exact .setCall hcall rfl rfl (List.Subset.refl _)
  | settled hcall hflush hposting => exact .setCall hcall rfl rfl (List.Subset.refl _)
  | gaveUp hcall hflush hposting => exact .setCall hcall rfl rfl (List.Subset.refl _)
  | forwarded hcall hflush hposting hbatches => exact .setCall hcall rfl rfl (List.Subset.refl _)

/-- A call has the context it came in with. -/
theorem context_of_step {encodes : Value → Bool} {l : AgentStep}
    (hstep : ag.step encodes l = some ag') {call' : Call} (hcall' : call' ∈ ag'.calls) :
    (∃ call ∈ ag.calls, call'.context = call.context) ∨
      ∃ scopeType headers, l = .request scopeType headers ∧
        call'.context = captureContext scopeType headers := by
  -- no call that goes on gets another context
  have hkeep : ∀ {calls : List Call} {i : ℕ} {call new : Call}, call' ∈ calls →
      ag.calls[i]? = some call → calls = ag.calls.set i new → new.context = call.context →
        ∃ call ∈ ag.calls, call'.context = call.context := by
    rintro calls i call new hmem hcall rfl hcontext
    rcases List.mem_or_eq_of_mem_set hmem with hmem | rfl
    · exact ⟨call', hmem, rfl⟩
    · exact ⟨call, List.mem_of_getElem? hcall, hcontext⟩
  cases next_of_step hstep with
  | request scopeType headers =>
    rcases List.mem_append.mp hcall' with hmem | hmem
    · exact .inl ⟨call', hmem, rfl⟩
    · obtain rfl := List.mem_singleton.mp hmem
      exact .inr ⟨scopeType, headers, rfl, rfl⟩
  | statement s hcall => exact .inl (hkeep hcall' hcall rfl rfl)
  | drained hcall hflush hfinal hbound => exact .inl (hkeep hcall' hcall rfl rfl)
  | passed hcall hflush hplain => exact .inl (hkeep hcall' hcall rfl rfl)
  | posted hcall hflush hposting hbatches hencodes => exact .inl (hkeep hcall' hcall rfl rfl)
  | raised hcall hflush hposting hbatches hencodes => exact .inl (hkeep hcall' hcall rfl rfl)
  | settled hcall hflush hposting => exact .inl (hkeep hcall' hcall rfl rfl)
  | gaveUp hcall hflush hposting => exact .inl (hkeep hcall' hcall rfl rfl)
  | forwarded hcall hflush hposting hbatches => exact .inl (hkeep hcall' hcall rfl rfl)

theorem Executed.mono (h : ag.Executed active query result) (hext : ag.Extends ag') :
    ag'.Executed active query result := by
  obtain ⟨call, hcall, hactive, hquery, hresult, hevents⟩ := h
  obtain ⟨call', hcall', hcontext, hqueued⟩ := hext call hcall
  exact ⟨call', hcall', hcontext.trans hactive, hqueued hquery, hqueued hresult, hevents⟩

theorem Attributed.mono (h : ag.Attributed active e) (hext : ag.Extends ag') :
    ag'.Attributed active e := by
  obtain ⟨query, result, hexecuted, he⟩ := h
  exact ⟨query, result, hexecuted.mono hext, he⟩

/-- An event carries the ids of the context it is attributed to. -/
theorem Attributed.ids (h : ag.Attributed active e) :
    e.recordingId = active.recordingId ∧ e.correlationId = active.correlationId := by
  obtain ⟨query, result, ⟨_, -, -, -, -, plugin, s, rfl, rfl⟩, rfl | rfl⟩ := h
  · exact ⟨rfl, rfl⟩
  · exact ⟨rfl, rfl⟩

/-! ### Steps -/

/-- The batches of the requests after one has gone on. -/
theorem batches_getElem?_set (hcall : ag.calls[i]? = some call)
    (hcalls : ag'.calls = ag.calls.set i new) (j : ℕ) :
    ag'.calls[j]?.elim [] Call.batches =
      if i = j then new.batches else ag.calls[j]?.elim [] Call.batches := by
  obtain ⟨hlt, -⟩ := List.getElem?_eq_some_iff.mp hcall
  rw [hcalls]
  split_ifs with hij
  · subst hij
    rw [List.getElem?_set_self hlt, Option.elim_some]
  · rw [List.getElem?_set_ne hij]

/-- Events are handed on or given up, and none is new. -/
theorem Routed.handOn (h : ag.Routed log) (hext : ag.Extends ag')
    (hsequence : ag'.plugin.sequence = ag.plugin.sequence) (hknown : ag'.known.Subperm ag.known)
    (hbatches : ∀ call ∈ ag'.calls, ∀ b ∈ call.batches, ∀ e ∈ b.2, e.recordingId = b.1)
    (hposts : ∀ p ∈ ag'.posts, ∀ e ∈ p.events, e.recordingId = p.recordingId)
    (hlanes : ∀ j recordingId, (ag'.lane j recordingId).Sublist (ag.lane j recordingId)) :
    ag'.Routed log := by
  obtain ⟨l, hperm, hsub⟩ := hknown
  constructor
  case numbered => exact h.numbered
  case counted => rw [hsequence]; exact h.counted
  case attributed =>
    intro e he
    obtain ⟨active, hactive⟩ := h.attributed e he
    exact ⟨active, hactive.mono hext⟩
  case once => exact ((hperm.map _).nodup_iff).mp (h.once.sublist (hsub.map _))
  case logged => exact fun e he => h.logged e (hsub.subset (hperm.mem_iff.mpr he))
  case batches => exact hbatches
  case posts => exact hposts
  case lanes => exact fun j recordingId => (hlanes j recordingId).trans (h.lanes j recordingId)

/-- A request goes on and gives up some of its batches. -/
theorem Routed.shrink (h : ag.Routed log) (hcall : ag.calls[i]? = some call) (new : Call)
    (hcalls : ag'.calls = ag.calls.set i new) (hposts : ag'.posts = ag.posts)
    (hplugin : ag'.plugin = ag.plugin) (hcontext : new.context = call.context)
    (hqueued : call.queued ⊆ new.queued) (hbatches : new.batches.Sublist call.batches) :
    ag'.Routed log := by
  have hwaiting : ag'.waiting.Sublist ag.waiting := by
    rw [waiting, waiting, hcalls]
    exact List.flatMap_set_sublist hcall (hbatches.flatMap _)
  have hknown : ag'.known.Sublist ag.known := by
    rw [known, known, hposts, hplugin]
    exact ((List.Sublist.refl _).append hwaiting).append (List.Sublist.refl _)
  refine h.handOn (.setCall hcall hcalls hcontext hqueued) (by rw [hplugin]) hknown.subperm ?_
    (by rw [hposts]; exact h.posts) fun j recordingId => ?_
  -- the batches of the request that goes on are some of those it had
  · rw [hcalls]
    refine List.forall_mem_set h.batches fun b hb => ?_
    exact h.batches call (List.mem_of_getElem? hcall) b (hbatches.subset hb)
  · rw [lane, lane, postedTo, postedTo, hposts, hplugin, batches_getElem?_set hcall hcalls]
    refine ((List.Sublist.refl _).append ?_).append (List.Sublist.refl _)
    split_ifs with hij
    · subst hij
      rw [hcall, Option.elim_some]
      exact (hbatches.filter _).flatMap _
    · exact List.Sublist.refl _

/-- The new events of a statement go to the end of the queue, and nothing else moves. -/
theorem known_ran (hcall : ag.calls[i]? = some call) (s : Statement) :
    (ag.ran i call s).known.Perm (ag.known ++ ag.plugin.captured s call.context) := by
  have hwaiting : (ag.ran i call s).waiting.Perm ag.waiting :=
    (List.perm_append_left_iff _).mp
      (List.flatMap_set_perm (f := fun call : Call => call.batches.flatMap Prod.snd) hcall
        { call with queued := call.queued ++ ag.plugin.captured s call.context })
  show ((ag.posts.flatMap Post.events ++ (ag.ran i call s).waiting) ++
    (ag.plugin.queue ++ ag.plugin.captured s call.context)).Perm _
  rw [known, ← List.append_assoc]
  exact ((hwaiting.append_left _).append_right _).append_right _

theorem lane_ran (hcall : ag.calls[i]? = some call) (s : Statement) (j : ℕ)
    (recordingId : String) :
    (ag.ran i call s).lane j recordingId = ag.lane j recordingId ++
      (ag.plugin.captured s call.context).filter fun e => e.recordingId = recordingId := by
  have hbatches : (ag.ran i call s).calls[j]?.elim [] Call.batches =
      ag.calls[j]?.elim [] Call.batches := by
    rw [batches_getElem?_set hcall rfl]
    split_ifs with hij
    · subst hij
      rw [hcall]
      rfl
    · rfl
  have hqueue : (ag.ran i call s).plugin.queue =
      ag.plugin.queue ++ ag.plugin.captured s call.context := rfl
  rw [lane, lane, hbatches, hqueue, List.filter_append, ← List.append_assoc]
  rfl

/-- The events of a statement are attributed to the context of its request. -/
theorem attributed_ran (hcall : ag.calls[i]? = some call) {s : Statement}
    (he : e ∈ ag.plugin.captured s call.context) :
    ∃ active, (ag.ran i call s).Attributed active e := by
  obtain ⟨hlt, -⟩ := List.getElem?_eq_some_iff.mp hcall
  cases hcontext : call.context with
  | none =>
    rw [hcontext] at he
    cases he
  | some active =>
    have hboth : ag.plugin.captured s call.context =
        [ag.plugin.queryEvent active s, ag.plugin.resultEvent active s] := by
      rw [hcontext]
      rfl
    refine ⟨active, _, _, ⟨_, List.mem_set hlt _, hcontext, ?_, ?_, ag.plugin, s, rfl, rfl⟩, ?_⟩
    · exact List.mem_append_right _ (hboth ▸ by simp)
    · exact List.mem_append_right _ (hboth ▸ by simp)
    · exact List.mem_pair.mp (hboth ▸ he)

/-- A request executes a statement. -/
theorem Routed.ran (h : ag.Routed log) (hcall : ag.calls[i]? = some call) (s : Statement) :
    (ag.ran i call s).Routed (log ++ ag.plugin.captured s call.context) := by
  -- the new events have the next numbers, and the log has smaller ones
  have hlater : ∀ e ∈ ag.plugin.captured s call.context, ag.plugin.sequence ≤ e.sequence :=
    fun e he => (ag.plugin.sequence_mem_captured s he).1
  constructor
  case numbered =>
    refine List.pairwise_append.mpr ⟨h.numbered, ag.plugin.pairwise_sequence_captured s _, ?_⟩
    intro e he e' he'
    exact (h.counted e he).trans_le (hlater e' he')
  case counted =>
    intro e he
    rcases List.mem_append.mp he with he | he
    · have hgrows : ag.plugin.sequence ≤ (ag.plugin.after s call.context).sequence := by
        show ag.plugin.sequence ≤ ag.plugin.sequence + _
        omega
      exact (h.counted e he).trans_le hgrows
    · exact (ag.plugin.sequence_mem_captured s he).2
  case attributed =>
    intro e he
    rcases List.mem_append.mp he with he | he
    · obtain ⟨active, hactive⟩ := h.attributed e he
      exact ⟨active, hactive.mono (.setCall hcall rfl rfl (List.subset_append_left _ _))⟩
    · exact attributed_ran hcall he
  case once =>
    rw [((known_ran hcall s).map Event.sequence).nodup_iff, List.map_append, List.nodup_append']
    refine ⟨h.once, ?_, ?_⟩
    · have hpair := ag.plugin.pairwise_sequence_captured s call.context
      exact (List.pairwise_map.mpr hpair).imp fun hlt => hlt.ne
    · intro n hn hn'
      obtain ⟨e, he, rfl⟩ := List.mem_map.mp hn
      obtain ⟨e', he', heq⟩ := List.mem_map.mp hn'
      exact absurd heq ((h.counted e (h.logged e he)).trans_le (hlater e' he')).ne'
  case logged =>
    intro e he
    rcases List.mem_append.mp ((known_ran hcall s).mem_iff.mp he) with he | he
    · exact List.mem_append_left _ (h.logged e he)
    · exact List.mem_append_right _ he
  case batches =>
    -- the flush of the request stays as it is
    exact List.forall_mem_set h.batches (h.batches call (List.mem_of_getElem? hcall))
  case posts => exact h.posts
  case lanes =>
    intro j recordingId
    rw [lane_ran hcall]
    exact (h.lanes j recordingId).append List.filter_sublist

/-- What was on the queue is in the batches of the request that drained it. -/
theorem known_drained (hcall : ag.calls[i]? = some call) (hidle : call.batches = [])
    (message : Message) : (ag.drained i call message).known.Perm ag.known := by
  let batches := Dict.collect Event.recordingId ag.plugin.queue
  have htaken : (batches.flatMap Prod.snd).Perm ag.plugin.queue := by
    rw [List.flatMap_def]
    exact Dict.flatten_collect_perm Event.recordingId ag.plugin.queue
  have hset := List.flatMap_set_perm (f := fun call : Call => call.batches.flatMap Prod.snd) hcall
    { call with flush := some { message := message, batches := batches } }
  have hwaiting : (ag.drained i call message).waiting.Perm (ag.waiting ++ ag.plugin.queue) := by
    rw [hidle] at hset
    exact hset.trans (List.perm_append_comm.trans (htaken.append_left _))
  show ((ag.posts.flatMap Post.events ++ (ag.drained i call message).waiting) ++ []).Perm _
  rw [List.append_nil, known, List.append_assoc]
  exact hwaiting.append_left _

/-- A request drains the queue into batches. -/
theorem Routed.drained (h : ag.Routed log) (hcall : ag.calls[i]? = some call)
    (hflush : call.flush = none) (message : Message) : (ag.drained i call message).Routed log := by
  have hidle : call.batches = [] := by
    rw [Call.batches, hflush]
    rfl
  let batches := Dict.collect Event.recordingId ag.plugin.queue
  let new : Call := { call with flush := some { message := message, batches := batches } }
  have hcalls : (ag.drained i call message).calls = ag.calls.set i new := rfl
  refine h.handOn (.setCall hcall hcalls rfl (List.Subset.refl _)) rfl
    (known_drained hcall hidle message).subperm ?_ h.posts fun j recordingId => ?_
  · exact List.forall_mem_set h.batches fun b hb e he => Dict.eq_of_mem_collect hb he
  · rw [lane, lane, batches_getElem?_set hcall hcalls]
    split_ifs with hij
    · -- what was on the queue for the recording is now in its batch
      subst hij
      have hbatch : (new.batches.filter fun b => b.1 = recordingId).flatMap Prod.snd =
          ag.plugin.queue.filter fun e => e.recordingId = recordingId :=
        Dict.flatMap_filter_collect Event.recordingId ag.plugin.queue recordingId
      have hqueue : (ag.drained i call message).plugin.queue = [] := rfl
      rw [hbatch, hqueue, hcall, Option.elim_some, hidle]
      simp [postedTo, CaptureAgent.drained, setCall]
    · -- the other requests find the queue empty
      exact (List.Sublist.refl _).append (List.nil_sublist _)

section Posted

variable {f : Flush} {recordingId : String} {batch : List Event} {rest : Dict String (List Event)}

/-- The batch that is posted leaves the batches of its request. -/
theorem known_posted (hcall : ag.calls[i]? = some call)
    (hheld : call.batches = (recordingId, batch) :: rest) :
    (ag.posted i call f recordingId batch rest).known.Perm ag.known := by
  let ag' := ag.posted i call f recordingId batch rest
  have hposts : ag'.posts = ag.posts ++ [⟨i, recordingId, batch⟩] := rfl
  have hset := List.flatMap_set_perm (f := fun call : Call => call.batches.flatMap Prod.snd) hcall
    { call with flush := some { f with posting := some (recordingId, batch), batches := rest } }
  have hwaiting : (batch ++ ag'.waiting).Perm ag.waiting := by
    -- the batch and the rest on one side, the rest on the other
    rw [hheld, List.flatMap_cons, List.append_assoc] at hset
    exact (List.perm_append_left_iff _).mp ((List.perm_append_comm_assoc _ _ _).trans hset)
  rw [known, known, hposts, List.flatMap_append, List.flatMap_singleton, List.append_assoc _ batch]
  exact (hwaiting.append_left _).append_right _

theorem lane_posted (hcall : ag.calls[i]? = some call)
    (hheld : call.batches = (recordingId, batch) :: rest) (j : ℕ) (rid : String) :
    (ag.posted i call f recordingId batch rest).lane j rid = ag.lane j rid := by
  let ag' := ag.posted i call f recordingId batch rest
  let new : Call :=
    { call with flush := some { f with posting := some (recordingId, batch), batches := rest } }
  have hcalls : ag'.calls = ag.calls.set i new := rfl
  have hposts : ag'.posts = ag.posts ++ [⟨i, recordingId, batch⟩] := rfl
  have hqueue : ag'.plugin = ag.plugin := rfl
  show ag'.lane j rid = ag.lane j rid
  rw [lane, lane, postedTo, postedTo, batches_getElem?_set hcall hcalls, hposts, hqueue,
    List.filter_append, List.flatMap_append]
  -- the batch leaves the flush's own list and enters the posts, in one lane
  by_cases hij : i = j
  · subst hij
    rw [if_pos rfl, hcall, Option.elim_some, hheld]
    by_cases hrid : recordingId = rid
    · simp [hrid, new, Call.batches]
    · simp [hrid, new, Call.batches]
  · simp [hij]

/-- A flush posts its first batch. -/
theorem Routed.posted (h : ag.Routed log) (hcall : ag.calls[i]? = some call)
    (hflush : call.flush = some f) (hbatches : f.batches = (recordingId, batch) :: rest) :
    (ag.posted i call f recordingId batch rest).Routed log := by
  have hheld : call.batches = (recordingId, batch) :: rest := by
    rw [Call.batches, hflush]
    exact hbatches
  refine h.handOn (.setCall hcall rfl rfl (List.Subset.refl _)) rfl
    (known_posted hcall hheld).subperm ?_ ?_ fun j rid => ?_
  · -- the batches that are left
    refine List.forall_mem_set h.batches fun b hb => ?_
    exact h.batches call (List.mem_of_getElem? hcall) b (hheld ▸ List.mem_cons_of_mem _ hb)
  · -- the batch that is posted
    refine List.forall_mem_concat h.posts ?_
    exact h.batches call (List.mem_of_getElem? hcall) _ (hheld ▸ List.mem_cons_self)
  · rw [lane_posted hcall hheld]

end Posted

/-- A request comes in. -/
theorem Routed.request (h : ag.Routed log) (context : Option CaptureContext) :
    ({ ag with calls := ag.calls ++ [{ context := context }] } : CaptureAgent).Routed log := by
  let ag' : CaptureAgent := { ag with calls := ag.calls ++ [{ context := context }] }
  have hwaiting : ag'.waiting = ag.waiting := by
    rw [waiting, List.flatMap_append]
    exact List.append_nil _
  have hbatches : ∀ j : ℕ,
      ag'.calls[j]?.elim [] Call.batches = ag.calls[j]?.elim [] Call.batches := by
    intro j
    by_cases hj : j < ag.calls.length
    · rw [List.getElem?_append_left hj]
    · rw [List.getElem?_append_right (Nat.le_of_not_lt hj),
        List.getElem?_eq_none (Nat.le_of_not_lt hj)]
      cases hnew : [({ context := context } : Call)][j - ag.calls.length]? with
      | none => rfl
      | some other =>
        -- the new request has no flush
        obtain rfl := List.mem_singleton.mp (List.mem_of_getElem? hnew)
        rfl
  have hknown : ag'.known.Subperm ag.known := by
    rw [known, hwaiting]
    exact List.Subperm.refl _
  refine h.handOn (fun call hcall => ?_) rfl hknown ?_ h.posts fun j recordingId => ?_
  · exact ⟨call, List.mem_append_left _ hcall, rfl, List.Subset.refl _⟩
  · exact List.forall_mem_concat h.batches fun b hb => nomatch hb
  · rw [lane, hbatches]
    exact List.Sublist.refl _

/-- Nothing new is queued. -/
theorem Routed.quiet (h : ag.Routed log) {queued : List Event} (hqueued : queued = []) :
    ag.Routed (log ++ queued) := by
  rw [hqueued, List.append_nil]
  exact h

/-- **Every step keeps the events on their way**, whatever happens to the posts. -/
theorem Routed.step {encodes : Value → Bool} {l : AgentStep} (h : ag.Routed log)
    (hstep : ag.step encodes l = some ag') : ag'.Routed (log ++ ag.queues l) := by
  cases next_of_step hstep with
  | request scopeType headers => exact (h.request _).quiet rfl
  | statement s hcall =>
    rw [queues, hcall]
    exact h.ran hcall s
  | drained hcall hflush hfinal hbound => exact (h.drained hcall hflush _).quiet rfl
  | posted hcall hflush hposting hbatches hencodes =>
    exact (h.posted hcall hflush hbatches).quiet rfl
  | @settled i call f recordingId batch accepted hcall hflush hposting =>
    -- the batches that are left stay as they are
    let new : Call := { call with flush := some { f with posting := none } }
    have hbatches : new.batches.Sublist call.batches := by
      rw [Call.batches, Call.batches, hflush]
      exact List.Sublist.refl _
    have hrouted : (ag.settled i call f batch accepted).Routed log :=
      h.shrink hcall new rfl rfl rfl rfl (List.Subset.refl _) hbatches
    exact hrouted.quiet rfl
  -- in the other steps a flush gives up the batches it has
  | @passed i call message hcall hflush hplain =>
    let new : Call := { call with flush := none, sent := call.sent ++ [message] }
    have hrouted : (ag.passed i call message).Routed log :=
      h.shrink hcall new rfl rfl rfl rfl (List.Subset.refl _) (List.nil_sublist _)
    exact hrouted.quiet rfl
  | @raised i call f recordingId batch rest hcall hflush hposting hbatches hencodes =>
    let new : Call := { call with flush := none }
    have hrouted : (ag.raised i call).Routed log :=
      h.shrink hcall new rfl rfl rfl rfl (List.Subset.refl _) (List.nil_sublist _)
    exact hrouted.quiet rfl
  | @gaveUp i call f recordingId batch hcall hflush hposting =>
    let new : Call := { call with flush := some { f with posting := none, batches := [] } }
    have hrouted : (ag.gaveUp i call f).Routed log :=
      h.shrink hcall new rfl rfl rfl rfl (List.Subset.refl _) (List.nil_sublist _)
    exact hrouted.quiet rfl
  | @forwarded i call f hcall hflush hposting hbatches =>
    let new : Call := { call with flush := none, sent := call.sent ++ [f.message] }
    have hrouted : (ag.passed i call f.message).Routed log :=
      h.shrink hcall new rfl rfl rfl rfl (List.Subset.refl _) (List.nil_sublist _)
    exact hrouted.quiet rfl

end CaptureAgent

end InfraReplay
