import InfraReplay.Common.Dict
import InfraReplay.Common.Sort
import InfraReplay.Schema

/-!
# Pairing an original event stream with a replayed one

`_signatures` numbers the correlation groups of a stream by first appearance in sequence order and
counts, inside each group, the events of each type; `link_streams` joins two streams on the
resulting signatures.

`signatures_eq` replaces the two counters of the loop by what they count: the signature of an
event is the position of its correlation id among those seen, its type, and the number of events
before it with the same correlation id and type (`signatureIn`). From it follow that no two events
of a stream share a signature and that a link joins equal signatures (`get?_linkStreams`).
`linkStreams_positionalMatching` says what that makes of the links: the first originals of a slot
and the first replayed events of it, pairwise.
-/

namespace InfraReplay

/-- `tuple[int, str, int]`: group number, event type, occurrence. -/
abbrev Signature := ℕ × String × ℕ

/-- The dictionaries of the numbering loop. -/
structure SignatureState where
  groupIndex : Dict String ℕ := []
  seen : Dict (ℕ × String) ℕ := []
  signatures : Dict Signature String := []

/-- One turn of the numbering loop. -/
def signatureStep (st : SignatureState) (event : Event) : SignatureState :=
  let group := (st.groupIndex.get? event.correlationId).getD st.groupIndex.length
  let groupIndex :=
    if event.correlationId ∈ st.groupIndex.keys then st.groupIndex
    else st.groupIndex.set event.correlationId st.groupIndex.length
  let key := (group, event.eventType.value)
  let occurrence := (st.seen.get? key).getD 0
  { groupIndex := groupIndex
    seen := st.seen.set key (occurrence + 1)
    signatures := st.signatures.set (group, event.eventType.value, occurrence) event.eventId }

/-- `_signatures`. -/
def signatures (events : List Event) : Dict Signature String :=
  ((events.sortBy Event.sequence).foldl signatureStep {}).signatures

/-- `link_streams`: original event id to replayed event id. -/
def linkStreams (original replayed : List Event) : Dict String String :=
  let replayBySig := signatures replayed
  (signatures original).foldl (fun links entry =>
    match replayBySig.get? entry.1 with
    | none => links
    | some replayEid => links.set entry.2 replayEid) []

/-! ### What the counters count -/

/-- Events of one correlation group and one type. -/
def SameSlot (e e' : Event) : Prop :=
  e.correlationId = e'.correlationId ∧ e.eventType = e'.eventType

instance (e e' : Event) : Decidable (SameSlot e e') := by
  unfold SameSlot
  infer_instance

/-- The events that share a slot with an event are those that share it with a slot mate. -/
theorem sameSlot_congr {e e' : Event} (h : SameSlot e e') :
    (fun x => decide (SameSlot e' x)) = fun x => decide (SameSlot e x) := by
  ext x
  apply decide_eq_decide.mpr
  rw [SameSlot, SameSlot, h.1, h.2]

/-- The number of a correlation group in a stream; a group not seen yet gets the next number. -/
def groupNumber (events : List Event) (correlationId : String) : ℕ :=
  (events.map Event.correlationId).firstSeen.idxOf correlationId

/-- How many groups a stream has. -/
def groupCount (events : List Event) : ℕ :=
  (events.map Event.correlationId).firstSeen.length

/-- The signature of the event that follows `before` in a stream. -/
def signatureIn (before : List Event) (event : Event) : Signature :=
  (groupNumber before event.correlationId, event.eventType.value,
    before.countP fun e => SameSlot event e)

/-- The signatures of the events of a stream that follow `before`, with the event ids. -/
def annotate (before : List Event) : List Event → Dict Signature String
  | [] => []
  | event :: events =>
    (signatureIn before event, event.eventId) :: annotate (before ++ [event]) events

/-- Annotating goes on with what stands before. -/
theorem annotate_append (before l l' : List Event) :
    annotate before (l ++ l') = annotate before l ++ annotate (before ++ l) l' := by
  induction l generalizing before with
  | nil => simp [annotate]
  | cons event l ih => simp [annotate, ih]

/-- Annotating keeps the ids, in order. -/
@[simp]
theorem map_snd_annotate (before l : List Event) :
    (annotate before l).map Prod.snd = l.map Event.eventId := by
  induction l generalizing before with
  | nil => rfl
  | cons event l ih => simp [annotate, ih]

/-- The entries of `annotate`, by the place of their event. -/
theorem mem_annotate {before l : List Event} {sig : Signature} {eventId : String} :
    (sig, eventId) ∈ annotate before l ↔
      ∃ pre event post, l = pre ++ event :: post ∧ sig = signatureIn (before ++ pre) event ∧
        eventId = event.eventId := by
  induction l generalizing before with
  | nil => simp [annotate]
  | cons e l ih =>
    rw [annotate, List.mem_cons, ih]
    constructor
    · -- an entry is of the first event, or of a later one with that event before it
      rintro (h | ⟨pre, event, post, rfl, rfl, rfl⟩)
      · obtain ⟨rfl, rfl⟩ := Prod.mk.inj h
        exact ⟨[], e, l, rfl, by simp, rfl⟩
      · exact ⟨e :: pre, event, post, rfl, by simp, rfl⟩
    · rintro ⟨pre, event, post, hl, rfl, rfl⟩
      cases pre with
      | nil =>
        obtain ⟨rfl, rfl⟩ := List.cons.inj hl
        exact Or.inl (by simp)
      | cons e' pre =>
        obtain ⟨rfl, rfl⟩ := List.cons.inj hl
        exact Or.inr ⟨pre, event, post, rfl, by simp, rfl⟩

/-! ### Group numbers -/

/-- A correlation id of the stream has one of the group numbers. -/
theorem groupNumber_lt {events : List Event} {c : String}
    (h : c ∈ events.map Event.correlationId) : groupNumber events c < groupCount events :=
  List.idxOf_lt_length_of_mem (List.mem_firstSeen.mpr h)

/-- One that is not of the stream has none. -/
theorem groupNumber_of_notMem {events : List Event} {c : String}
    (h : c ∉ events.map Event.correlationId) : groupNumber events c = groupCount events :=
  List.idxOf_eq_length (mt List.mem_firstSeen.mp h)

/-- Different groups have different numbers. -/
theorem groupNumber_inj {events : List Event} {c c' : String}
    (h : c ∈ events.map Event.correlationId) :
    groupNumber events c = groupNumber events c' ↔ c = c' :=
  List.idxOf_inj (List.mem_firstSeen.mpr h)

/-- The number of a group is settled when its first event comes. -/
theorem groupNumber_append_singleton (before : List Event) (event : Event) :
    groupNumber (before ++ [event]) event.correlationId =
      groupNumber before event.correlationId := by
  rw [groupNumber, List.map_append, List.map_singleton, List.firstSeen_append_singleton]
  split_ifs with h
  · rfl
  · rw [List.idxOf_append_of_notMem h, List.idxOf_cons_self, Nat.add_zero]
    exact (List.idxOf_eq_length h).symm

/-- Later events do not change the number of a group. -/
theorem groupNumber_append {before : List Event} (after : List Event) {c : String}
    (h : c ∈ before.map Event.correlationId) :
    groupNumber (before ++ after) c = groupNumber before c := by
  rw [groupNumber, List.map_append]
  exact List.idxOf_firstSeen_append h

/-- More events do not make fewer groups. -/
theorem groupCount_append_le (before after : List Event) :
    groupCount before ≤ groupCount (before ++ after) := by
  rw [groupCount, groupCount, List.map_append]
  exact (List.firstSeen_isPrefix _ _).length_le

/-- A group that comes up later has a number beyond those given so far. -/
theorem groupCount_le_groupNumber {before : List Event} (event : Event) {c : String}
    (h : c ∉ before.map Event.correlationId) :
    groupCount before ≤ groupNumber (before ++ [event]) c := by
  by_cases hce : c = event.correlationId
  · rw [hce, groupNumber_append_singleton, ← hce, groupNumber_of_notMem h]
  · have hnot : c ∉ (before ++ [event]).map Event.correlationId := by
      rw [List.map_append, List.map_singleton, List.mem_append, List.mem_singleton]
      exact not_or.mpr ⟨h, hce⟩
    rw [groupNumber_of_notMem hnot]
    exact groupCount_append_le before [event]

/-- The group number in a signature is the number of the group in the whole stream. -/
theorem signatureIn_fst (before after : List Event) (event : Event) :
    (signatureIn before event).1 =
      groupNumber (before ++ event :: after) event.correlationId := by
  have hsplit : before ++ event :: after = (before ++ [event]) ++ after := by simp
  rw [hsplit, groupNumber_append after (by simp), groupNumber_append_singleton]
  rfl

/-- Two signatures of one stream are equal only for events of one slot. -/
theorem sameSlot_of_signatureIn_eq (pre pre' post post' : List Event) {e e' : Event}
    (hl : pre ++ e :: post = pre' ++ e' :: post')
    (h : signatureIn pre e = signatureIn pre' e') : SameSlot e e' := by
  have hgroup : groupNumber (pre ++ e :: post) e.correlationId =
      groupNumber (pre ++ e :: post) e'.correlationId := by
    rw [← signatureIn_fst, h, hl, ← signatureIn_fst]
  have htype : e.eventType.value = e'.eventType.value := congrArg (fun s => s.2.1) h
  exact ⟨(groupNumber_inj (by simp)).mp hgroup, EventType.value_inj.mp htype⟩

/-- An event and a later one of the same stream have different signatures: if they share group and
type, the later one has counted the earlier one. -/
theorem signatureIn_ne_of_before (before mid : List Event) (e e' : Event) :
    signatureIn before e ≠ signatureIn (before ++ e :: mid) e' := by
  intro h
  have hslot : SameSlot e e' :=
    sameSlot_of_signatureIn_eq before (before ++ e :: mid) (mid ++ e' :: []) [] (by simp) h
  have hcount : before.countP (fun x => SameSlot e x) =
      (before ++ e :: mid).countP (fun x => SameSlot e' x) := congrArg (fun s => s.2.2) h
  -- the later event counts what the earlier one counts, and the earlier one itself
  rw [sameSlot_congr hslot, List.countP_append, List.countP_cons] at hcount
  have hself : decide (SameSlot e e) = true := by simp [SameSlot]
  rw [hself, if_pos rfl] at hcount
  omega

/-- No two events of a stream share a signature. -/
theorem nodup_keys_annotate (before l : List Event) : (annotate before l).keys.Nodup := by
  induction l generalizing before with
  | nil => simp [annotate]
  | cons event l ih =>
    rw [annotate, Dict.keys, List.map_cons, List.nodup_cons]
    refine ⟨fun hmem => ?_, ih _⟩
    obtain ⟨⟨sig, eventId⟩, hentry, hsig⟩ := List.mem_map.mp hmem
    obtain ⟨pre, e, post, rfl, rfl, rfl⟩ := mem_annotate.mp hentry
    exact signatureIn_ne_of_before before pre event e (by simpa using hsig.symm)

/-! ### The loop computes the signatures -/

/-- The dictionaries of the loop after the events of `done`. -/
structure SignatureInv (done : List Event) (st : SignatureState) : Prop where
  keys_groupIndex : st.groupIndex.keys = (done.map Event.correlationId).firstSeen
  get?_groupIndex : ∀ c ∈ done.map Event.correlationId,
    st.groupIndex.get? c = some (groupNumber done c)
  get?_seen : ∀ event : Event,
    (st.seen.get? (groupNumber done event.correlationId, event.eventType.value)).getD 0 =
      done.countP fun e => SameSlot event e
  get?_seen_fresh : ∀ group type, groupCount done ≤ group → st.seen.get? (group, type) = none
  signatures_eq : st.signatures = annotate [] done

/-- The loop starts with no signature. -/
theorem signatureInv_init : SignatureInv [] {} where
  keys_groupIndex := rfl
  get?_groupIndex := by simp
  get?_seen := by simp
  get?_seen_fresh := by simp
  signatures_eq := rfl

/-- The number the loop gives to the group of the next event. -/
theorem SignatureInv.group_eq {done : List Event} {st : SignatureState}
    (h : SignatureInv done st) (event : Event) :
    (st.groupIndex.get? event.correlationId).getD st.groupIndex.length =
      groupNumber done event.correlationId := by
  by_cases hc : event.correlationId ∈ done.map Event.correlationId
  · rw [h.get?_groupIndex _ hc, Option.getD_some]
  · have hkeys : event.correlationId ∉ st.groupIndex.keys := by
      rwa [h.keys_groupIndex, List.mem_firstSeen]
    rw [Dict.get?_eq_none_iff.mpr hkeys, Option.getD_none, groupNumber_of_notMem hc, groupCount,
      ← h.keys_groupIndex, Dict.keys, List.length_map]

/-- The group dictionary after one more event. -/
private theorem groupIndex_step {done : List Event} {st : SignatureState}
    (h : SignatureInv done st) (event : Event) :
    (signatureStep st event).groupIndex.keys =
        ((done ++ [event]).map Event.correlationId).firstSeen ∧
      ∀ c ∈ (done ++ [event]).map Event.correlationId,
        (signatureStep st event).groupIndex.get? c = some (groupNumber (done ++ [event]) c) := by
  have hlen : st.groupIndex.length = groupCount done := by
    rw [groupCount, ← h.keys_groupIndex, Dict.keys, List.length_map]
  rw [List.map_append, List.map_singleton, List.firstSeen_append_singleton]
  by_cases hc : event.correlationId ∈ done.map Event.correlationId
  · have hkeys : event.correlationId ∈ st.groupIndex.keys := by
      rwa [h.keys_groupIndex, List.mem_firstSeen]
    -- a known group: nothing is added
    simp only [signatureStep, if_pos hkeys]
    refine ⟨by rw [if_pos (List.mem_firstSeen.mpr hc), h.keys_groupIndex], fun c hmem => ?_⟩
    have hmem' : c ∈ done.map Event.correlationId := by
      rcases List.mem_append.mp hmem with hm | hm
      · exact hm
      · rwa [List.mem_singleton.mp hm]
    rw [h.get?_groupIndex c hmem', groupNumber_append [event] hmem']
  · have hkeys : event.correlationId ∉ st.groupIndex.keys := by
      rwa [h.keys_groupIndex, List.mem_firstSeen]
    -- a new group: it gets the next number
    simp only [signatureStep, if_neg hkeys]
    refine ⟨?_, fun c hmem => ?_⟩
    · rw [if_neg (mt List.mem_firstSeen.mp hc), Dict.set_of_notMem hkeys, Dict.keys,
        List.map_append, ← h.keys_groupIndex]
      rfl
    · rw [Dict.get?_set]
      by_cases hce : event.correlationId = c
      · subst hce
        rw [if_pos rfl, groupNumber_append_singleton, groupNumber_of_notMem hc, hlen]
      · have hmem' : c ∈ done.map Event.correlationId := by
          rcases List.mem_append.mp hmem with hm | hm
          · exact hm
          · exact absurd (List.mem_singleton.mp hm).symm hce
        rw [if_neg hce, h.get?_groupIndex c hmem', groupNumber_append [event] hmem']

/-- A counter the next event does not move. -/
private theorem get?_seen_other {done : List Event} {st : SignatureState}
    (h : SignatureInv done st) (event other : Event) :
    (st.seen.get?
        (groupNumber (done ++ [event]) other.correlationId, other.eventType.value)).getD 0 =
      done.countP fun e => SameSlot other e := by
  by_cases hc : other.correlationId ∈ done.map Event.correlationId
  · rw [groupNumber_append [event] hc, h.get?_seen other]
  · -- a group the loop has not reached: neither counter has moved
    rw [h.get?_seen_fresh _ _ (groupCount_le_groupNumber event hc), Option.getD_none, eq_comm,
      List.countP_eq_zero]
    intro e he hslot
    exact hc (List.mem_map.mpr ⟨e, he, (of_decide_eq_true hslot).1.symm⟩)

/-- The occurrence counters after one more event. -/
private theorem seen_step {done : List Event} {st : SignatureState}
    (h : SignatureInv done st) (event other : Event) :
    ((signatureStep st event).seen.get?
        (groupNumber (done ++ [event]) other.correlationId, other.eventType.value)).getD 0 =
      (done ++ [event]).countP fun e => SameSlot other e := by
  simp only [signatureStep, h.group_eq event, h.get?_seen event]
  rw [Dict.get?_set, List.countP_append, List.countP_singleton,
    ← groupNumber_append_singleton done event]
  by_cases hslot : SameSlot other event
  · have hkey : (groupNumber (done ++ [event]) event.correlationId, event.eventType.value) =
        (groupNumber (done ++ [event]) other.correlationId, other.eventType.value) := by
      rw [hslot.1, hslot.2]
    rw [if_pos hkey, Option.getD_some, sameSlot_congr hslot]
    simp [hslot]
  · -- different slots have different counters
    have hkey : (groupNumber (done ++ [event]) event.correlationId, event.eventType.value) ≠
        (groupNumber (done ++ [event]) other.correlationId, other.eventType.value) := by
      intro hk
      obtain ⟨hgroup, htype⟩ := Prod.mk.inj hk
      exact hslot ⟨((groupNumber_inj (by simp)).mp hgroup).symm,
        (EventType.value_inj.mp htype).symm⟩
    rw [if_neg hkey, get?_seen_other h event other]
    simp [hslot]

/-- One turn of the loop keeps the invariant. -/
theorem signatureInv_step {done : List Event} {st : SignatureState} (h : SignatureInv done st)
    (event : Event) : SignatureInv (done ++ [event]) (signatureStep st event) where
  keys_groupIndex := (groupIndex_step h event).1
  get?_groupIndex := (groupIndex_step h event).2
  get?_seen := seen_step h event
  get?_seen_fresh := by
    intro group type hle
    have hmono := groupCount_append_le done [event]
    have hlt : groupNumber done event.correlationId < groupCount (done ++ [event]) := by
      rw [← groupNumber_append_singleton]
      exact groupNumber_lt (by simp)
    simp only [signatureStep, h.group_eq event]
    rw [Dict.get?_set, if_neg, h.get?_seen_fresh _ _ (hmono.trans hle)]
    intro hk
    have : groupNumber done event.correlationId = group := congrArg Prod.fst hk
    omega
  signatures_eq := by
    -- the signature of the event is a new key, so the entry goes to the end
    have hsig : signatureIn done event =
        (groupNumber done event.correlationId, event.eventType.value,
          done.countP fun e => SameSlot event e) := rfl
    have hnd := nodup_keys_annotate [] (done ++ [event])
    rw [annotate_append, Dict.keys, List.map_append, annotate, annotate, List.map_singleton,
      List.nodup_append_singleton] at hnd
    have hnew : signatureIn done event ∉ Dict.keys (annotate [] done) := hnd.2
    simp only [signatureStep, h.group_eq event, h.get?_seen event, ← hsig]
    rw [h.signatures_eq, Dict.set_of_notMem hnew, annotate_append]
    rfl

/-- The signatures of a stream are those of its events in sequence order. -/
theorem signatures_eq (events : List Event) :
    signatures events = annotate [] (events.sortBy Event.sequence) := by
  have hrun : ∀ done todo st, SignatureInv done st →
      SignatureInv (done ++ todo) (todo.foldl signatureStep st) := by
    intro done todo
    induction todo generalizing done with
    | nil => simp
    | cons event todo ih =>
      intro st h
      simpa using ih (done ++ [event]) _ (signatureInv_step h event)
  exact (hrun [] _ {} signatureInv_init).signatures_eq

/-! ### Links -/

/-- A join that writes distinct keys lists the joined pairs. -/
private theorem foldl_join {f : Signature → Option String} {entries : Dict Signature String}
    (hnd : (entries.map Prod.snd).Nodup) :
    entries.foldl (fun links entry =>
        match f entry.1 with
        | none => links
        | some replayEid => Dict.set links entry.2 replayEid) [] =
      entries.filterMap fun entry => (f entry.1).map fun replayEid => (entry.2, replayEid) := by
  induction entries using List.reverseRecOn with
  | nil => rfl
  | append_singleton entries entry ih =>
    rw [List.map_append, List.map_singleton, List.nodup_append_singleton] at hnd
    rw [List.foldl_append, ih hnd.1, List.filterMap_append]
    cases hf : f entry.1 with
    | none => simp [hf]
    | some replayEid =>
      -- the key is the id of the new entry, which no entry before has
      have hkey : entry.2 ∉ Dict.keys (entries.filterMap fun entry =>
          (f entry.1).map fun replayEid => (entry.2, replayEid)) := by
        intro hmem
        obtain ⟨p, hp, hp1⟩ := List.mem_map.mp hmem
        obtain ⟨entry', hentry', hp'⟩ := List.mem_filterMap.mp hp
        obtain ⟨_, _, rfl⟩ := Option.map_eq_some_iff.mp hp'
        exact hnd.2 (List.mem_map.mpr ⟨entry', hentry', hp1⟩)
      simp [hf, Dict.set_of_notMem hkey]

/-- No event has two signatures. -/
theorem nodup_map_snd_signatures {events : List Event} (h : (events.map Event.eventId).Nodup) :
    ((signatures events).map Prod.snd).Nodup := by
  rw [signatures_eq, map_snd_annotate]
  exact ((List.sortBy_perm _ _).map _).nodup_iff.mpr h

/-- No signature has two events. -/
theorem nodup_keys_signatures (events : List Event) : (signatures events).keys.Nodup := by
  rw [signatures_eq]
  exact nodup_keys_annotate _ _

/-- The links as a list: the originals whose signature occurs in the replay, in sequence order. -/
theorem linkStreams_eq {original : List Event} (replayed : List Event)
    (h : (original.map Event.eventId).Nodup) :
    linkStreams original replayed = (signatures original).filterMap fun entry =>
      ((signatures replayed).get? entry.1).map fun replayEid => (entry.2, replayEid) :=
  foldl_join (nodup_map_snd_signatures h)

/-- Every original is linked at most once. -/
theorem nodup_keys_linkStreams {original : List Event} (replayed : List Event)
    (h : (original.map Event.eventId).Nodup) : (linkStreams original replayed).keys.Nodup := by
  have hsub : (linkStreams original replayed).keys.Sublist
      ((signatures original).map Prod.snd) := by
    rw [linkStreams_eq replayed h, Dict.keys, List.map_filterMap]
    generalize signatures original = entries
    induction entries with
    | nil => simp
    | cons entry entries ih =>
      cases hf : (signatures replayed).get? entry.1 with
      | none => simpa [hf] using ih.cons entry.2
      | some replayEid => simpa [hf] using ih.cons_cons entry.2
  exact (nodup_map_snd_signatures h).sublist hsub

/-- A link joins two events with one signature. -/
theorem get?_linkStreams {original : List Event} (replayed : List Event)
    (h : (original.map Event.eventId).Nodup) {eventId replayEid : String} :
    (linkStreams original replayed).get? eventId = some replayEid ↔
      ∃ sig, (sig, eventId) ∈ signatures original ∧ (sig, replayEid) ∈ signatures replayed := by
  rw [Dict.get?_eq_some_iff (nodup_keys_linkStreams replayed h), linkStreams_eq replayed h,
    List.mem_filterMap]
  constructor
  · rintro ⟨⟨sig, eid⟩, hentry, hpair⟩
    obtain ⟨eid', hget, heq⟩ := Option.map_eq_some_iff.mp hpair
    obtain ⟨rfl, rfl⟩ := Prod.mk.inj heq
    exact ⟨sig, hentry, (Dict.get?_eq_some_iff (nodup_keys_signatures replayed)).mp hget⟩
  · rintro ⟨sig, ho, hr⟩
    refine ⟨(sig, eventId), ho, ?_⟩
    rw [(Dict.get?_eq_some_iff (nodup_keys_signatures replayed)).mpr hr]
    rfl

/-! ### The matching -/

/-- The events of one type in the group of a number, in stream order. -/
def slotEvents (events : List Event) (group : ℕ) (eventType : EventType) : List Event :=
  (events.sortBy Event.sequence).filter fun e =>
    groupNumber (events.sortBy Event.sequence) e.correlationId = group ∧ e.eventType = eventType

/-- A signature says its group, its type and its place. -/
theorem signature_inj {group group' i i' : ℕ} {eventType eventType' : EventType}
    (h : (group, eventType.value, i) = (group', eventType'.value, i')) :
    group = group' ∧ eventType = eventType' ∧ i = i' := by
  simpa using h

/-- The signatures number the events of each slot. -/
theorem mem_signatures_iff {events : List Event} {sig : Signature} {eventId : String} :
    (sig, eventId) ∈ signatures events ↔
      ∃ group eventType i, sig = (group, eventType.value, i) ∧
        ∃ e, (slotEvents events group eventType)[i]? = some e ∧ e.eventId = eventId := by
  rw [signatures_eq, mem_annotate]
  generalize hstream : events.sortBy Event.sequence = stream
  -- inside the stream, sharing a slot with `e` is being of its group number and type
  have hslot : ∀ pre e post, stream = pre ++ e :: post →
      pre.countP (fun e' => SameSlot e e') = pre.countP fun e' =>
        groupNumber stream e'.correlationId = groupNumber stream e.correlationId ∧
          e'.eventType = e.eventType := by
    rintro pre e post rfl
    refine List.countP_congr fun e' he' => ?_
    have hmem : e'.correlationId ∈ (pre ++ e :: post).map Event.correlationId :=
      List.mem_map_of_mem (List.mem_append_left _ he')
    rw [decide_eq_true_eq, decide_eq_true_eq, groupNumber_inj hmem]
    exact and_congr eq_comm eq_comm
  constructor
  · rintro ⟨pre, e, post, hsplit, rfl, rfl⟩
    refine ⟨groupNumber stream e.correlationId, e.eventType,
      pre.countP fun e' => SameSlot e e', ?_, e, ?_, rfl⟩
    · rw [List.nil_append, hsplit, ← signatureIn_fst]
      rfl
    · rw [slotEvents, hstream, List.getElem?_filter_eq_some_iff]
      exact ⟨pre, post, hsplit, by simp, (hslot pre e post hsplit).symm⟩
  · rintro ⟨group, eventType, i, rfl, e, hget, rfl⟩
    rw [slotEvents, hstream, List.getElem?_filter_eq_some_iff] at hget
    obtain ⟨pre, post, hsplit, hp, rfl⟩ := hget
    obtain ⟨rfl, rfl⟩ := of_decide_eq_true hp
    refine ⟨pre, e, post, hsplit, ?_, rfl⟩
    rw [List.nil_append, ← hslot pre e post hsplit, hsplit, ← signatureIn_fst]
    rfl

/-- `links` joins, slot by slot, the `i`-th original to the `i`-th replayed event. -/
structure PositionalMatching (original replayed : List Event) (links : Dict String String) :
    Prop where
  injective : ∀ o o' r, links.get? o = some r → links.get? o' = some r → o = o'
  sameSlot : ∀ o r, links.get? o = some r → ∃ e ∈ original, ∃ e' ∈ replayed,
    e.eventId = o ∧ e'.eventId = r ∧ e.eventType = e'.eventType ∧
      groupNumber (original.sortBy Event.sequence) e.correlationId =
        groupNumber (replayed.sortBy Event.sequence) e'.correlationId
  /-- An original beyond the last replayed event of its slot is not linked. -/
  positional : ∀ group eventType (i : ℕ) (e : Event),
    (slotEvents original group eventType)[i]? = some e → links.get? e.eventId =
      ((slotEvents replayed group eventType)[i]?).map Event.eventId

/-- The events of a slot are those of its group and type. -/
theorem mem_slotEvents {events : List Event} {group : ℕ} {eventType : EventType} {e : Event} :
    e ∈ slotEvents events group eventType ↔ e ∈ events ∧
      groupNumber (events.sortBy Event.sequence) e.correlationId = group ∧
        e.eventType = eventType := by
  rw [slotEvents, List.mem_filter, List.mem_sortBy, decide_eq_true_eq]

/-- The links are the positional matching of the two streams. -/
theorem linkStreams_positionalMatching {original replayed : List Event}
    (ho : (original.map Event.eventId).Nodup) (hr : (replayed.map Event.eventId).Nodup) :
    PositionalMatching original replayed (linkStreams original replayed) where
  injective := by
    intro o o' r h h'
    obtain ⟨sig, hsig, hsigr⟩ := (get?_linkStreams replayed ho).mp h
    obtain ⟨sig', hsig', hsigr'⟩ := (get?_linkStreams replayed ho).mp h'
    -- the replayed event has one signature, and so have the originals linked to it
    have heq := List.inj_on_of_nodup_map (nodup_map_snd_signatures hr) hsigr hsigr' rfl
    have hsame := List.inj_on_of_nodup_map (nodup_keys_signatures original) hsig hsig'
      (Prod.mk.inj heq).1
    exact (Prod.mk.inj hsame).2
  sameSlot := by
    intro o r h
    obtain ⟨sig, hsig, hsigr⟩ := (get?_linkStreams replayed ho).mp h
    obtain ⟨group, eventType, i, rfl, e, hget, rfl⟩ := mem_signatures_iff.mp hsig
    obtain ⟨group', eventType', i', heq, e', hget', rfl⟩ := mem_signatures_iff.mp hsigr
    obtain ⟨rfl, rfl, rfl⟩ := signature_inj heq
    obtain ⟨he, hgroup, rfl⟩ := mem_slotEvents.mp (List.mem_of_getElem? hget)
    obtain ⟨he', hgroup', htype'⟩ := mem_slotEvents.mp (List.mem_of_getElem? hget')
    exact ⟨e, he, e', he', rfl, rfl, htype'.symm, hgroup.trans hgroup'.symm⟩
  positional := by
    intro group eventType i e hget
    have hsig : ((group, eventType.value, i), e.eventId) ∈ signatures original :=
      mem_signatures_iff.mpr ⟨group, eventType, i, rfl, e, hget, rfl⟩
    apply Option.ext
    intro r
    rw [get?_linkStreams replayed ho, Option.map_eq_some_iff]
    constructor
    · rintro ⟨sig, hmem, hmem'⟩
      -- the original has one signature, its place in the slot
      have heq := List.inj_on_of_nodup_map (nodup_map_snd_signatures ho) hmem hsig rfl
      obtain rfl : sig = (group, eventType.value, i) := congrArg Prod.fst heq
      obtain ⟨group', eventType', i', heq, e', hget', rfl⟩ := mem_signatures_iff.mp hmem'
      obtain ⟨rfl, rfl, rfl⟩ := signature_inj heq
      exact ⟨e', hget', rfl⟩
    · rintro ⟨e', hget', rfl⟩
      exact ⟨_, hsig, mem_signatures_iff.mpr ⟨group, eventType, i, rfl, e', hget', rfl⟩⟩

/-- Three queries against two, in interleaved groups. -/
theorem linkStreams_positionalMatching_queries :
    let original : List Event := [.brief .httpRequest "r1" "a" 0, .brief .pgQuery "q1" "b" 1,
      .brief .pgQuery "q2" "a" 1, .brief .pgQuery "q3" "a" 2]
    let replayed : List Event := [.brief .pgQuery "q5" "z" 9, .brief .httpRequest "r4" "z" 4]
    PositionalMatching original replayed (linkStreams original replayed) :=
  linkStreams_positionalMatching (by decide) (by decide)

/-! ### The first event of a slot -/

/-- The event is the first of its group and type. -/
def FirstInSlot (events : List Event) (e : Event) : Prop :=
  (events.find? fun e' => SameSlot e e') = some e

/-- The first event of a slot has its signature with number `0`. -/
theorem mem_signatures_of_first {events : List Event}
    (hseq : events.Pairwise fun a b => a.sequence < b.sequence) {e : Event}
    (h : FirstInSlot events e) :
    ((groupNumber events e.correlationId, e.eventType.value, 0), e.eventId) ∈
      signatures events := by
  obtain ⟨-, pre, post, rfl, hpre⟩ := List.find?_eq_some_iff_append.mp h
  have hcount : pre.countP (fun e' => SameSlot e e') = 0 := by
    rw [List.countP_eq_zero]
    intro e' he'
    simpa using hpre e' he'
  rw [signatures_eq, List.sortBy_eq_self (hseq.imp le_of_lt), mem_annotate]
  refine ⟨pre, e, post, rfl, ?_, rfl⟩
  rw [List.nil_append, ← signatureIn_fst]
  show _ = (groupNumber pre e.correlationId, e.eventType.value, _)
  rw [hcount]
  rfl

/-- Two first events of one type are linked when their groups have the same number. -/
theorem get?_linkStreams_of_first {original replayed : List Event}
    (ho : original.Pairwise fun a b => a.sequence < b.sequence)
    (hr : replayed.Pairwise fun a b => a.sequence < b.sequence)
    (hoids : (original.map Event.eventId).Nodup) (hrids : (replayed.map Event.eventId).Nodup)
    {e r : Event} (he : FirstInSlot original e) (hfirst : FirstInSlot replayed r)
    (htype : e.eventType = r.eventType) :
    (linkStreams original replayed).get? e.eventId = some r.eventId ↔
      groupNumber original e.correlationId = groupNumber replayed r.correlationId := by
  have hsig := mem_signatures_of_first ho he
  have hsig' := mem_signatures_of_first hr hfirst
  rw [get?_linkStreams replayed hoids]
  constructor
  · rintro ⟨sig, hmem, hmem'⟩
    -- an event has one signature, so the shared one is the first of the slot on both sides
    have hinj := List.inj_on_of_nodup_map (nodup_map_snd_signatures hoids) hmem hsig rfl
    have hinj' := List.inj_on_of_nodup_map (nodup_map_snd_signatures hrids) hmem' hsig' rfl
    have heq := (congrArg (fun p => p.1.1) hinj).symm.trans (congrArg (fun p => p.1.1) hinj')
    exact heq
  · intro hnumber
    rw [← htype, ← hnumber] at hsig'
    exact ⟨_, hsig, hsig'⟩

/-- The one event of a slot is its first. -/
theorem firstInSlot_of_unique {events : List Event} {e : Event} (he : e ∈ events)
    (h : ∀ e' ∈ events, SameSlot e e' → e' = e) : FirstInSlot events e := by
  unfold FirstInSlot
  cases hfind : events.find? fun e' => SameSlot e e' with
  | none =>
    have hself := List.find?_eq_none.mp hfind e he
    exact absurd (decide_eq_true ⟨rfl, rfl⟩) hself
  | some e' =>
    have hslot : SameSlot e e' := by simpa using List.find?_some hfind
    rw [h e' (List.mem_of_find?_eq_some hfind) hslot]

end InfraReplay
