import Mathlib.Data.Fin.Basic
import InfraReplay.Recording.Correlate

/-!
# The order and the parent links that correlation gives

Events of a stream may be equal, so the order is stated through the places of the input
(`Fin events.length`): `placesOf` lists those of one correlation id as their group does, and
`blocksOf` those of all groups. `correlate_causalOrder` says that the output lists every place
once, in blocks of one correlation id, and that both sorts break ties as stable sorting does.

`parentAt` is the parent that correlation gives to the event of a place, and `exists_madeOf` finds
the place of an event of the output together with the places of what stands before it.
`causalLinks_correlate_iff`: every filled link names an event that stands earlier in the output
exactly when every event that is hung off the request of its group sorts after a request. Two
clocks that disagree break this (`not_causalLinks_earlyQuery`).
-/

namespace InfraReplay

/-! ### Places -/

/-- The event of place `i` sorts before that of place `j`: by clock, and by place among equal
clocks. -/
def SortsAhead (events : List Event) (i j : Fin events.length) : Prop :=
  events[i].clock < events[j].clock ∨ events[i].clock = events[j].clock ∧ i < j

instance (events : List Event) (i j : Fin events.length) : Decidable (SortsAhead events i j) := by
  unfold SortsAhead
  infer_instance

/-- The places of one correlation id, in the order of their group. -/
def placesOf (events : List Event) (correlationId : String) : List (Fin events.length) :=
  ((List.finRange events.length).filter fun i => events[i].correlationId = correlationId).sortBy
    fun i => events[i].clock

/-- The places of the groups. -/
def blocksOf (events : List Event) : List (List (Fin events.length)) :=
  ((events.map Event.correlationId).firstSeen.sortBy fun c =>
    groupClock (groupOf events c)).map (placesOf events)

/-- The places of a group are those of the events with its correlation id. -/
theorem mem_placesOf {events : List Event} {c : String} {i : Fin events.length} :
    i ∈ placesOf events c ↔ events[i].correlationId = c := by
  simp [placesOf]

/-- A group lists the events of its places. -/
theorem map_placesOf (events : List Event) (c : String) :
    (placesOf events c).map (fun i => events[i]) = groupOf events c := by
  have hfilter : (events.filter fun e => e.correlationId = c) =
      ((List.finRange events.length).filter fun i => events[i].correlationId = c).map
        fun i => events[i] := by
    conv_lhs => rw [← List.map_get_finRange events, List.filter_map]
    rfl
  rw [groupOf, hfilter, List.sortBy_map]
  rfl

/-- The blocks of places are the groups of events. -/
theorem map_blocksOf (events : List Event) :
    (blocksOf events).map (List.map fun i => events[i]) = groups events := by
  rw [groups_eq, List.sortBy_map, blocksOf, List.map_map]
  exact List.map_congr_left fun c _ => map_placesOf events c

/-- A place is in its group once. -/
theorem nodup_placesOf (events : List Event) (c : String) : (placesOf events c).Nodup :=
  (List.sortBy_perm _ _).nodup_iff.mpr ((List.nodup_finRange _).filter _)

/-- Inside a block each place sorts ahead of the later ones. -/
theorem pairwise_placesOf (events : List Event) (c : String) :
    (placesOf events c).Pairwise (SortsAhead events) := by
  have hlt : ((List.finRange events.length).filter fun i =>
      events[i].correlationId = c).Pairwise (· < ·) :=
    (List.pairwise_lt_finRange _).filter _
  have hbefore := List.sortBy_pairwise_sortsBefore (fun i : Fin events.length => events[i].clock)
    ((List.nodup_finRange events.length).filter fun i => events[i].correlationId = c)
  refine hbefore.imp_of_mem fun {i j} _ hj hij => ?_
  rcases hij with hclock | ⟨heq, hidx⟩
  · exact .inl hclock
  · -- the filtered places are in order, so the earlier index is the smaller place
    exact .inr ⟨heq, hlt.lt_of_idxOf_lt hidx (List.mem_sortBy.mp hj)⟩

/-- The blocks show every place once. -/
theorem flatten_blocksOf_perm (events : List Event) :
    (blocksOf events).flatten.Perm (List.finRange events.length) := by
  have hids : ((events.map Event.correlationId).firstSeen.sortBy fun c =>
      groupClock (groupOf events c)).Nodup :=
    (List.sortBy_perm _ _).nodup_iff.mpr (List.nodup_firstSeen _)
  -- a place is in the block of its own group and in no other
  have hnodup : (blocksOf events).flatten.Nodup := by
    rw [List.nodup_flatten, blocksOf, List.pairwise_map]
    constructor
    · intro b hb
      obtain ⟨c, -, rfl⟩ := List.mem_map.mp hb
      exact nodup_placesOf events c
    · refine hids.imp fun {c c'} hne i hi hi' => hne ?_
      rw [← mem_placesOf.mp hi, ← mem_placesOf.mp hi']
  refine (List.perm_ext_iff_of_nodup hnodup (List.nodup_finRange _)).mpr fun i => ?_
  have hmem : i ∈ (blocksOf events).flatten := by
    refine List.mem_flatten.mpr ⟨placesOf events events[i].correlationId, ?_,
      mem_placesOf.mpr rfl⟩
    refine List.mem_map_of_mem (List.mem_sortBy.mpr (List.mem_firstSeen.mpr ?_))
    exact List.mem_map_of_mem (List.getElem_mem i.isLt)
  simp [hmem]

/-- A group seen before another has a place before all of the other's. -/
theorem exists_place_lt {events : List Event} {c c' : String}
    (hc' : c' ∈ events.map Event.correlationId)
    (h : (events.map Event.correlationId).firstSeen.idxOf c <
      (events.map Event.correlationId).firstSeen.idxOf c') :
    ∃ i ∈ placesOf events c, ∀ j ∈ placesOf events c', i < j := by
  obtain ⟨pre, post, hsplit, hnot⟩ := List.eq_append_cons_of_mem hc'
  have hmem : c ∈ pre := List.mem_of_idxOf_firstSeen_lt hnot (by rwa [← hsplit])
  obtain ⟨k, hk, rfl⟩ := List.mem_iff_getElem.mp hmem
  have hlen : events.length = pre.length + (post.length + 1) := by
    simpa using congrArg List.length hsplit
  have hid : ∀ (i : Fin events.length) (hi : i.val < pre.length),
      events[i].correlationId = pre[i.val] := by
    intro i hi
    have hget : (events.map Event.correlationId)[i.val]? = (pre ++ c' :: post)[i.val]? := by
      rw [hsplit]
    simpa [hi, List.getElem?_append_left] using hget
  refine ⟨⟨k, by omega⟩, mem_placesOf.mpr (hid _ hk), fun j hj => ?_⟩
  by_contra hle
  -- a place of the other group this early would put it into the prefix
  have hj' : j.val < pre.length := (Nat.le_of_not_lt hle).trans_lt hk
  exact hnot ((mem_placesOf.mp hj).symm.trans (hid j hj') ▸ List.getElem_mem hj')

/-- The clock of a group is that of its first place. -/
theorem groupClock_of_head {events : List Event} {c : String} {i : Fin events.length}
    (h : i ∈ (placesOf events c).head?) : groupClock (groupOf events c) = events[i].clock := by
  rw [groupClock, ← map_placesOf, List.head?_map, Option.mem_def.mp h]
  rfl

/-- An earlier block starts at a smaller clock, or at the same clock and was seen first. -/
theorem pairwise_blocksOf (events : List Event) :
    (blocksOf events).Pairwise fun b b' => ∀ i ∈ b.head?, ∀ i' ∈ b'.head?,
      events[i].clock < events[i'].clock ∨
        events[i].clock = events[i'].clock ∧ ∃ j ∈ b, ∀ j' ∈ b', j < j' := by
  rw [blocksOf, List.pairwise_map]
  refine (List.sortBy_pairwise_sortsBefore (fun c => groupClock (groupOf events c))
    (List.nodup_firstSeen _)).imp_of_mem fun {c c'} _ hc' h i hi i' hi' => ?_
  rw [← groupClock_of_head hi, ← groupClock_of_head hi']
  rcases h with hclock | ⟨heq, hseen⟩
  · exact .inl hclock
  · exact .inr ⟨heq, exists_place_lt (List.mem_firstSeen.mp (List.mem_sortBy.mp hc')) hseen⟩

/-! ### Re-sequencing -/

/-- `output` is `events` in causal order, `blocks` being the places of its correlation groups. -/
structure CausalOrder (events output : List Event) (blocks : List (List (Fin events.length))) :
    Prop where
  /-- No event is lost and none occurs twice. -/
  places : blocks.flatten.Perm (List.finRange events.length)
  /-- Only sequence numbers and parents differ from the input. -/
  resequenced : List.Forall₂ (fun i e' => Resequenced events[i] e') blocks.flatten output
  numbered : output.map Event.sequence = (List.range output.length).map fun n : ℕ => (n : ℤ)
  /-- A block is all of one correlation id. -/
  oneGroup : ∀ b ∈ blocks, b ≠ [] ∧ ∃ c, ∀ i, i ∈ b ↔ events[i].correlationId = c
  /-- Inside a block events are in clock order, ties in input order. -/
  within : ∀ b ∈ blocks, b.Pairwise (SortsAhead events)
  /-- The blocks are in the clock order of their first events, ties in order of appearance. -/
  between : blocks.Pairwise fun b b' => ∀ i ∈ b.head?, ∀ i' ∈ b'.head?,
    events[i].clock < events[i'].clock ∨
      events[i].clock = events[i'].clock ∧ ∃ j ∈ b, ∀ j' ∈ b', j < j'

/-- Correlation puts a stream in causal order. -/
theorem correlate_causalOrder (events : List Event) :
    ∃ blocks, CausalOrder events (correlate events) blocks := by
  refine ⟨blocksOf events, flatten_blocksOf_perm events, ?_, ?_, ?_, ?_,
    pairwise_blocksOf events⟩
  · -- the stream is the blocks one after the other, links and numbers aside
    have hbare := map_bare_correlate events
    rw [← map_blocksOf, ← List.map_flatten, ← List.forall₂_eq_eq_eq, List.forall₂_map_left_iff,
      List.forall₂_map_right_iff, List.forall₂_map_right_iff] at hbare
    exact hbare.flip.imp fun i e' h => bare_eq_iff.mp h.symm
  · rw [length_correlate]
    exact map_sequence_correlate events
  · intro b hb
    obtain ⟨c, hc, rfl⟩ := List.mem_map.mp hb
    refine ⟨?_, c, fun i => mem_placesOf⟩
    have hne := groupOf_ne_nil (List.mem_firstSeen.mp (List.mem_sortBy.mp hc))
    rwa [← map_placesOf, Ne, List.map_eq_nil_iff] at hne
  · intro b hb
    obtain ⟨c, -, rfl⟩ := List.mem_map.mp hb
    exact pairwise_placesOf events c

/-! ### The output by places -/

/-- Links and numbers aside, `correlate` lists the blocks one after the other. -/
theorem map_bare_blocksOf (events : List Event) :
    (correlate events).map Event.bare =
      (blocksOf events).flatten.map fun i => events[i].bare := by
  rw [map_bare_correlate, ← map_blocksOf, ← List.map_flatten, List.map_map]
  rfl

/-- The places of one correlation id among those of all blocks. -/
theorem filter_blocksOf {events : List Event} {c : String}
    (h : c ∈ events.map Event.correlationId) :
    ((blocksOf events).flatten.filter fun i => events[i].correlationId = c) =
      placesOf events c := by
  rw [blocksOf, ← List.flatMap_def]
  refine List.filter_flatMap_label id (fun c _ i hi => mem_placesOf.mp hi) ?_
    (List.mem_sortBy.mpr (List.mem_firstSeen.mpr h))
  exact (List.sortBy_perm _ _).nodup_iff.mpr (List.nodup_firstSeen _)

/-! ### The parent of each place -/

/-- An event of the same group and of a given type sorts ahead of place `i`. -/
def TypeAhead (events : List Event) (i : Fin events.length) (eventType : EventType) : Prop :=
  ∃ j : Fin events.length, events[j].correlationId = events[i].correlationId ∧
    events[j].eventType = eventType ∧ SortsAhead events j i

instance (events : List Event) (i : Fin events.length) (eventType : EventType) :
    Decidable (TypeAhead events i eventType) := by
  unfold TypeAhead
  infer_instance

/-- Of two places only one sorts ahead. -/
theorem SortsAhead.asymm {events : List Event} {i j : Fin events.length}
    (h : SortsAhead events i j) : ¬ SortsAhead events j i := by
  rintro (hlt | ⟨heq, hlt⟩) <;> rcases h with hlt' | ⟨heq', hlt'⟩
  · exact lt_asymm hlt hlt'
  · exact hlt.ne' heq'
  · exact hlt'.ne' heq
  · exact lt_asymm hlt hlt'

/-- The places of a group up to one of them are those that sort ahead of it. -/
theorem filter_sortsAhead {events : List Event} {c : String} {i : Fin events.length}
    {pre post : List (Fin events.length)} (h : placesOf events c = pre ++ i :: post) :
    ((placesOf events c).filter fun j => SortsAhead events j i) = pre := by
  have hpair := pairwise_placesOf events c
  rw [h, List.pairwise_append, List.pairwise_cons] at hpair
  obtain ⟨-, ⟨hpost, -⟩, hpre⟩ := hpair
  have hpre_self : (pre.filter fun j => SortsAhead events j i) = pre :=
    List.filter_eq_self.mpr fun j hj => decide_eq_true (hpre j hj i (by simp))
  have hpost_nil : ((i :: post).filter fun j => SortsAhead events j i) = [] := by
    refine List.filter_eq_nil_iff.mpr fun j hj hji => ?_
    have hji := of_decide_eq_true hji
    rcases List.mem_cons.mp hj with rfl | hj
    · exact hji.asymm hji
    · exact (hpost j hj).asymm hji
  rw [h, List.filter_append, hpre_self, hpost_nil, List.append_nil]

/-- The queries among some places. -/
def queriesAt (events : List Event) (places : List (Fin events.length)) : List Event :=
  (places.map fun i => events[i]).filter fun e => e.eventType = .pgQuery

/-- One more place adds its event when that is a query. -/
theorem queriesAt_append_singleton (events : List Event) (places : List (Fin events.length))
    (i : Fin events.length) :
    queriesAt events (places ++ [i]) =
      queriesAt events places ++ if events[i].eventType = .pgQuery then [events[i]] else [] := by
  rw [queriesAt, List.map_append, List.filter_append, List.map_singleton, List.filter_singleton,
    Bool.cond_decide]
  rfl

/-- The parent that correlation gives to the event of a place. -/
def parentAt (events : List Event) (i : Fin events.length) : Option String :=
  orElse events[i].parentEventId
    (parentFor events[i]
      ((groupOf events events[i].correlationId).find? fun e => e.eventType = .httpRequest)
      (queriesAt events ((placesOf events events[i].correlationId).filter fun j =>
        SortsAhead events j i)).getLast?)

/-- The loop of `_link` from some place of a group on. -/
theorem map_parent_linkFrom {events : List Event} {c : String}
    {pre post : List (Fin events.length)} (h : placesOf events c = pre ++ post) :
    (linkFrom ((groupOf events c).find? fun e => e.eventType = .httpRequest)
        (queriesAt events pre).getLast? (post.map fun i => events[i])).map Event.parentEventId =
      post.map (parentAt events) := by
  induction post generalizing pre with
  | nil => rfl
  | cons i post ih =>
    have hi : events[i].correlationId = c := mem_placesOf.mp (by simp [h])
    -- the loop's `last_query` is the last query among the places passed so far
    have hlast : (queriesAt events (pre ++ [i])).getLast? =
        if events[i].eventType = .pgQuery then some events[i]
        else (queriesAt events pre).getLast? := by
      rw [queriesAt_append_singleton, List.getLast?_append]
      split_ifs <;> rfl
    have hrest := @ih (pre ++ [i]) (by simp [h])
    rw [hlast] at hrest
    rw [List.map_cons, linkFrom, List.map_cons, hrest, List.map_cons, parentAt, hi,
      filter_sortsAhead h]

/-- The parents of the output, place by place. -/
theorem map_parent_correlate (events : List Event) :
    (correlate events).map Event.parentEventId =
      (blocksOf events).flatten.map (parentAt events) := by
  have hblock : ∀ c, (link (groupOf events c)).map Event.parentEventId =
      (placesOf events c).map (parentAt events) := by
    intro c
    have h := @map_parent_linkFrom events c [] _ (List.nil_append _).symm
    rwa [map_placesOf] at h
  rw [correlate, map_numberFrom fun _ _ => rfl, groups_eq, List.sortBy_map, blocksOf]
  simp only [List.flatMap_def, List.map_flatten, List.map_map]
  congr 1
  exact List.map_congr_left fun c _ => hblock c

/-- `e'` was made of the event of place `i`, and what stands before it of the places `before`. -/
structure MadeOf (events pre : List Event) (e' : Event) (i : Fin events.length)
    (before : List (Fin events.length)) : Prop where
  bare : events[i].bare = e'.bare
  parent : e'.parentEventId = parentAt events i
  pre : before.map (fun j => events[j].bare) = pre.map Event.bare
  ahead : (before.filter fun j => events[j].correlationId = events[i].correlationId) =
    (placesOf events events[i].correlationId).filter fun j => SortsAhead events j i

/-- Every event of the output was made of the event of a place. -/
theorem exists_madeOf {events pre post : List Event} {e' : Event}
    (h : correlate events = pre ++ e' :: post) : ∃ i before, MadeOf events pre e' i before := by
  have hbare := map_bare_blocksOf events
  rw [h, List.map_append, List.map_cons, eq_comm, List.map_eq_append_iff] at hbare
  obtain ⟨before, rest, hplaces, hbefore, hrest⟩ := hbare
  obtain ⟨i, after, rfl, hi, -⟩ := List.map_eq_cons_iff.mp hrest
  refine ⟨i, before, hi, ?_, hbefore, ?_⟩
  · -- the parents stand at the same places
    have hparents := map_parent_correlate events
    rw [h, hplaces, List.map_append, List.map_append, List.map_cons, List.map_cons] at hparents
    have hlen : pre.length = before.length := by
      simpa using (congrArg List.length hbefore).symm
    exact (List.cons.inj (List.append_inj hparents (by simpa using hlen)).2).1
  · have hgroup := @filter_blocksOf events _ (List.mem_map_of_mem (List.getElem_mem i.isLt))
    rw [hplaces, List.filter_append, List.filter_cons_of_pos (by simp)] at hgroup
    exact (filter_sortsAhead hgroup.symm).symm

section MadeOf

variable {events pre : List Event} {e' : Event} {i : Fin events.length}
  {before : List (Fin events.length)} (h : MadeOf events pre e' i before)

include h

/-- `correlate` keeps the correlation id. -/
theorem MadeOf.correlationId : e'.correlationId = events[i].correlationId :=
  (congrArg Event.correlationId h.bare).symm

/-- The events of the group that stand before are those of the places that sort ahead. -/
theorem MadeOf.filter_pre :
    (pre.filter fun a => a.correlationId = e'.correlationId).map Event.bare =
      ((placesOf events events[i].correlationId).filter fun j => SortsAhead events j i).map
        fun j => events[j].bare := by
  have hkey : ((fun a : Event => decide (a.correlationId = e'.correlationId)) ∘ Event.bare) =
      fun a => decide (a.correlationId = e'.correlationId) := rfl
  rw [← h.ahead, ← hkey, ← List.filter_map, ← h.pre, List.filter_map, h.correlationId]
  rfl

/-- What a group has before the event is what sorts ahead of its place. -/
theorem MadeOf.exists_pre_iff {P : Event → Prop} (hP : ∀ e : Event, P e.bare ↔ P e) :
    (∃ a ∈ pre, P a ∧ a.correlationId = e'.correlationId) ↔
      ∃ j : Fin events.length, P events[j] ∧
        events[j].correlationId = events[i].correlationId ∧ SortsAhead events j i := by
  have hmem : ∀ b, b ∈ (pre.filter fun a => a.correlationId = e'.correlationId).map Event.bare ↔
      b ∈ ((placesOf events events[i].correlationId).filter fun j =>
        SortsAhead events j i).map fun j => events[j].bare := by
    simp only [h.filter_pre, implies_true]
  constructor
  · -- an event of the output, and the place it was made of
    rintro ⟨a, ha, hPa, hc⟩
    have ha' : a ∈ pre.filter fun a => a.correlationId = e'.correlationId :=
      List.mem_filter.mpr ⟨ha, decide_eq_true hc⟩
    obtain ⟨j, hj, hbare⟩ := List.mem_map.mp ((hmem _).mp (List.mem_map_of_mem ha'))
    obtain ⟨hplace, hahead⟩ := List.mem_filter.mp hj
    refine ⟨j, ?_, mem_placesOf.mp hplace, of_decide_eq_true hahead⟩
    exact (hP _).mp (hbare ▸ (hP a).mpr hPa)
  · -- a place, and the event of the output that was made of it
    rintro ⟨j, hPj, hc, hahead⟩
    have hj : j ∈ (placesOf events events[i].correlationId).filter fun j =>
        SortsAhead events j i :=
      List.mem_filter.mpr ⟨mem_placesOf.mpr hc, decide_eq_true hahead⟩
    obtain ⟨a, ha, hbare⟩ := List.mem_map.mp ((hmem _).mpr (List.mem_map_of_mem hj))
    obtain ⟨hpre, hca⟩ := List.mem_filter.mp ha
    exact ⟨a, hpre, (hP a).mp (hbare ▸ (hP _).mpr hPj), of_decide_eq_true hca⟩

end MadeOf

/-! ### Links -/

/-- No parent was recorded: there is none, or it is the empty string, which is no event id. -/
def Event.NeedsParent (e : Event) : Prop :=
  e.parentEventId = none ∨ e.parentEventId = some ""

instance (e : Event) : Decidable e.NeedsParent := by
  unfold Event.NeedsParent
  infer_instance

/-- `e'` is what became of `e`, and `pre` stands before it in the output. -/
structure PlacedAt (events output : List Event) (e e' : Event) (pre : List Event) : Prop where
  input : e ∈ events
  eventId : e'.eventId = e.eventId
  output : ∃ post, output = pre ++ e' :: post

/-- The nearest query of its group in what stands before an event. -/
def lastQueryBefore (pre : List Event) (e : Event) : Option Event :=
  (pre.filter fun a => a.correlationId = e.correlationId ∧ a.eventType = .pgQuery).getLast?

/-- The first request of the group of an event. -/
def firstRequest (output : List Event) (e : Event) : Option Event :=
  output.find? fun a => a.correlationId = e.correlationId ∧ a.eventType = .httpRequest

/-- Filled links are causal. -/
structure CausalLinks (events output : List Event) : Prop where
  kept : ∀ e e' pre, PlacedAt events output e e' pre → ¬ e.NeedsParent →
    e'.parentEventId = e.parentEventId
  requests : ∀ e e' pre, PlacedAt events output e e' pre → e.NeedsParent →
    e.eventType = .httpRequest → e'.parentEventId = none
  /-- A filled link names an earlier event of the group. -/
  causal : ∀ e e' pre, PlacedAt events output e e' pre → e.NeedsParent →
    ∀ p, e'.parentEventId = some p →
      ∃ a ∈ pre, a.eventId = p ∧ a.correlationId = e'.correlationId
  results : ∀ e e' pre, PlacedAt events output e e' pre → e.NeedsParent →
    e.eventType = .pgResult → ∀ q, lastQueryBefore pre e' = some q →
      e'.parentEventId = some q.eventId
  others : ∀ e e' pre, PlacedAt events output e e' pre → e.NeedsParent →
    e.eventType ≠ .httpRequest → (e.eventType = .pgResult → lastQueryBefore pre e' = none) →
      e'.parentEventId = (firstRequest output e').map Event.eventId

/-- The empty string is kept as a recorded parent. -/
def KeepsEmptyParents (events output : List Event) : Prop :=
  ∀ e e' pre, PlacedAt events output e e' pre → e.parentEventId = some "" →
    e'.parentEventId = some ""

/-- Every event that is hung off the request of its group sorts after a request of the group. -/
def RequestsFirst (events : List Event) : Prop :=
  ∀ i : Fin events.length, events[i].NeedsParent → events[i].eventType ≠ .httpRequest →
    ¬ (events[i].eventType = .pgResult ∧ TypeAhead events i .pgQuery) →
    (∃ e ∈ events, e.correlationId = events[i].correlationId ∧ e.eventType = .httpRequest) →
      TypeAhead events i .httpRequest

instance (events : List Event) : Decidable (RequestsFirst events) := by
  unfold RequestsFirst
  infer_instance

/-- A recorded parent stays. -/
theorem parentAt_of_recorded {events : List Event} {i : Fin events.length}
    (h : ¬ events[i].NeedsParent) : parentAt events i = events[i].parentEventId :=
  if_neg h

/-- A missing parent is proposed from what sorts ahead in the group. -/
theorem parentAt_of_needsParent {events : List Event} {i : Fin events.length}
    (h : events[i].NeedsParent) :
    parentAt events i = parentFor events[i]
      ((groupOf events events[i].correlationId).find? fun e => e.eventType = .httpRequest)
      (queriesAt events ((placesOf events events[i].correlationId).filter fun j =>
        SortsAhead events j i)).getLast? :=
  if_pos h

/-- With a query of the group ahead, the nearest of them is the same before and after. -/
theorem MadeOf.lastQueryBefore {events pre : List Event} {e' : Event} {i : Fin events.length}
    {before : List (Fin events.length)} (h : MadeOf events pre e' i before) :
    (lastQueryBefore pre e').map Event.eventId =
      (queriesAt events ((placesOf events events[i].correlationId).filter fun j =>
        SortsAhead events j i)).getLast?.map Event.eventId := by
  have hids : ∀ l : List Event,
      (l.filter fun e => e.eventType = .pgQuery).map Event.eventId =
        ((l.map Event.bare).filter fun e => e.eventType = .pgQuery).map Event.eventId := by
    intro l
    rw [List.filter_map, List.map_map]
    rfl
  have hsplit : (pre.filter fun a => a.correlationId = e'.correlationId ∧ a.eventType = .pgQuery) =
      (pre.filter fun a => a.correlationId = e'.correlationId).filter fun a =>
        a.eventType = .pgQuery := by
    rw [List.filter_filter]
    refine List.filter_congr fun a _ => ?_
    rw [Bool.decide_and, Bool.and_comm]
  -- both sides are the last of the same ids
  rw [InfraReplay.lastQueryBefore, hsplit, ← List.getLast?_map, hids, h.filter_pre, queriesAt,
    ← List.getLast?_map, hids (List.map (fun j : Fin events.length => events[j]) _), List.map_map]
  rfl

/-- The first request of a group is the same before and after. -/
theorem firstRequest_correlate {events : List Event} {e' : Event}
    (hc : e'.correlationId ∈ events.map Event.correlationId) :
    (firstRequest (correlate events) e').map Event.eventId =
      ((groupOf events e'.correlationId).find? fun e => e.eventType = .httpRequest).map
        Event.eventId := by
  have hids : ∀ (p : Event → Bool) (l : List Event), (∀ e : Event, p e.bare = p e) →
      (l.find? p).map Event.eventId = ((l.map Event.bare).find? p).map Event.eventId := by
    intro p l hp
    have hcomp : p ∘ Event.bare = p := funext hp
    rw [List.find?_map, Option.map_map, hcomp]
    rfl
  -- in the output the group stands in its block, in the order of its places
  have hgroup : (groupOf events e'.correlationId).map Event.bare =
      ((blocksOf events).flatten.filter fun i => events[i].correlationId = e'.correlationId).map
        fun i => events[i].bare := by
    rw [filter_blocksOf hc, ← map_placesOf, List.map_map]
    rfl
  rw [firstRequest, hids _ _ fun _ => rfl, map_bare_blocksOf, hids _ (groupOf _ _) fun _ => rfl,
    hgroup, List.find?_map, List.find?_map, List.find?_filter]
  simp only [Bool.decide_and, decide_eq_true_eq, Function.comp_def]
  rfl

/-- The queries at some places are events of the stream. -/
theorem mem_of_mem_queriesAt {events : List Event} {places : List (Fin events.length)} {q : Event}
    (h : q ∈ queriesAt events places) : q ∈ events := by
  obtain ⟨j, -, rfl⟩ := List.mem_map.mp (List.mem_filter.mp h).1
  exact List.getElem_mem j.isLt

/-- The parent `_parent_for` proposes is no empty string when the ids are not. -/
theorem parentFor_ne_empty {event : Event} {root lastQuery : Option Event}
    (hroot : ∀ e, root = some e → e.eventId ≠ "")
    (hquery : ∀ e, lastQuery = some e → e.eventId ≠ "") :
    parentFor event root lastQuery ≠ some "" := by
  have hfound : ∀ o : Option Event, (∀ e, o = some e → e.eventId ≠ "") →
      o.map Event.eventId ≠ some "" := by
    intro o ho hempty
    obtain ⟨e, he, hid⟩ := Option.map_eq_some_iff.mp hempty
    exact ho e he hid
  unfold parentFor
  split_ifs
  · -- a request has no parent
    simp
  · exact hfound lastQuery hquery
  · exact hfound root hroot

/-- There is a nearest query exactly when a query sorts ahead. -/
theorem getLast?_queriesAt_eq_none_iff {events : List Event} {i : Fin events.length} :
    (queriesAt events ((placesOf events events[i].correlationId).filter fun j =>
      SortsAhead events j i)).getLast? = none ↔ ¬ TypeAhead events i .pgQuery := by
  rw [List.getLast?_eq_none_iff, queriesAt, List.filter_eq_nil_iff]
  constructor
  · rintro h ⟨j, hc, htype, hahead⟩
    refine h events[j] (List.mem_map_of_mem (List.mem_filter.mpr ⟨mem_placesOf.mpr hc, ?_⟩))
      (decide_eq_true htype)
    exact decide_eq_true hahead
  · intro h e he htype
    obtain ⟨j, hj, rfl⟩ := List.mem_map.mp he
    obtain ⟨hplace, hahead⟩ := List.mem_filter.mp hj
    exact h ⟨j, mem_placesOf.mp hplace, of_decide_eq_true htype, of_decide_eq_true hahead⟩

section CausalLinks

variable {events : List Event} (hids : (events.map Event.eventId).Nodup)

include hids

/-- With distinct ids, an id has one place. -/
theorem place_inj {i j : Fin events.length} (h : events[i].eventId = events[j].eventId) :
    i = j := by
  have hget : (events.map Event.eventId).get ⟨i, by simp⟩ =
      (events.map Event.eventId).get ⟨j, by simp⟩ := by
    simpa using h
  exact Fin.ext (Fin.mk.inj (hids.get_inj_iff.mp hget))

/-- What `correlate` puts somewhere is made of an event of the stream. -/
theorem PlacedAt.exists_madeOf {e e' : Event} {pre : List Event}
    (h : PlacedAt events (correlate events) e e' pre) :
    ∃ i before, MadeOf events pre e' i before ∧ events[i] = e := by
  obtain ⟨post, hsplit⟩ := h.output
  obtain ⟨i, before, hmade⟩ := InfraReplay.exists_madeOf hsplit
  refine ⟨i, before, hmade, ?_⟩
  -- the id of the event tells which place it is
  have hid : events[i].eventId = e'.eventId := eventId_of_bare hmade.bare
  exact List.inj_on_of_nodup_map hids (List.getElem_mem i.isLt) h.input (hid.trans h.eventId)

/-- Every event of the stream is put somewhere. -/
theorem exists_placedAt (i : Fin events.length) :
    ∃ e' pre before, PlacedAt events (correlate events) events[i] e' pre ∧
      MadeOf events pre e' i before := by
  have hperm := map_correlate_perm (f := Event.bare) (fun _ _ => rfl) (fun _ _ => rfl) events
  obtain ⟨e', he', hbare⟩ := List.mem_map.mp (hperm.mem_iff.mpr
    (List.mem_map_of_mem (List.getElem_mem i.isLt)))
  obtain ⟨pre, post, hsplit⟩ := List.append_of_mem he'
  obtain ⟨i', before, hmade⟩ := exists_madeOf hsplit
  have hi : i' = i := place_inj hids (eventId_of_bare (hmade.bare.trans hbare))
  subst hi
  exact ⟨e', pre, before, ⟨List.getElem_mem i'.isLt, eventId_of_bare hbare, post, hsplit⟩,
    hmade⟩

end CausalLinks

/-- When no query of its group is nearer, the event is hung off the request. -/
theorem parentAt_eq_root {events : List Event} {i : Fin events.length}
    (hneeds : events[i].NeedsParent) (htype : events[i].eventType ≠ .httpRequest)
    (hquery : ¬ (events[i].eventType = .pgResult ∧ TypeAhead events i .pgQuery)) :
    parentAt events i =
      ((groupOf events events[i].correlationId).find? fun e => e.eventType = .httpRequest).map
        Event.eventId := by
  rw [parentAt_of_needsParent hneeds, parentFor, if_neg htype, if_neg]
  rintro ⟨hresult, hsome⟩
  rw [← Option.ne_none_iff_isSome, Ne, getLast?_queriesAt_eq_none_iff, not_not] at hsome
  exact hquery ⟨hresult, hsome⟩

/-- A result with a query of its group ahead is linked to the nearest one. -/
theorem parentAt_eq_query {events : List Event} {i : Fin events.length}
    (hneeds : events[i].NeedsParent) (hresult : events[i].eventType = .pgResult)
    (hquery : TypeAhead events i .pgQuery) :
    parentAt events i = (queriesAt events ((placesOf events events[i].correlationId).filter fun j =>
      SortsAhead events j i)).getLast?.map Event.eventId := by
  have htype : events[i].eventType ≠ .httpRequest := by
    rw [hresult]
    decide
  rw [parentAt_of_needsParent hneeds, parentFor, if_neg htype, if_pos]
  refine ⟨hresult, Option.ne_none_iff_isSome.mp fun hnone => ?_⟩
  exact getLast?_queriesAt_eq_none_iff.mp hnone hquery

/-- Sorting ahead is transitive. -/
theorem SortsAhead.trans {events : List Event} {i j k : Fin events.length}
    (hij : SortsAhead events i j) (hjk : SortsAhead events j k) : SortsAhead events i k := by
  rcases hij with hij | ⟨hij, hlt⟩
  · exact .inl (hjk.elim hij.trans fun h => hij.trans_eq h.1)
  · exact hjk.imp hij.trans_lt fun h => ⟨hij.trans h.1, hlt.trans h.2⟩

/-- The first request of a group is at a place, and ahead of what any request is ahead of. -/
theorem exists_place_of_root {events : List Event} {c : String} {r : Event}
    (h : ((groupOf events c).find? fun e => e.eventType = .httpRequest) = some r) :
    ∃ i : Fin events.length, events[i] = r ∧ r.correlationId = c ∧ r.eventType = .httpRequest ∧
      ∀ j : Fin events.length, events[j].correlationId = c → events[j].eventType = .httpRequest →
        j = i ∨ SortsAhead events i j := by
  rw [← map_placesOf, List.find?_map, Option.map_eq_some_iff] at h
  obtain ⟨i, hfind, rfl⟩ := h
  obtain ⟨htype, pre, post, hsplit, hpre⟩ := List.find?_eq_some_iff_append.mp hfind
  have hi : i ∈ placesOf events c := by simp [hsplit]
  refine ⟨i, rfl, mem_placesOf.mp hi, of_decide_eq_true htype, fun j hc hj => ?_⟩
  have hmem : j ∈ placesOf events c := mem_placesOf.mpr hc
  have hpair := pairwise_placesOf events c
  rw [hsplit, List.pairwise_append, List.pairwise_cons] at hpair
  rw [hsplit, List.mem_append, List.mem_cons] at hmem
  rcases hmem with hmem | rfl | hmem
  · -- no request comes before the first one
    have hnot := hpre j hmem
    simp only [Function.comp_apply, hj, decide_true, Bool.not_true] at hnot
    exact absurd hnot (by decide)
  · exact .inl rfl
  · exact .inr (hpair.2.1.1 j hmem)

section CausalLinks

variable {events : List Event} (hids : (events.map Event.eventId).Nodup)

include hids

/-- What is filled in when every request comes first names an earlier event of the group. -/
theorem causal_of_requestsFirst (h : RequestsFirst events) {e e' : Event} {pre : List Event}
    (hplaced : PlacedAt events (correlate events) e e' pre) (hneeds : e.NeedsParent) {p : String}
    (hp : e'.parentEventId = some p) :
    ∃ a ∈ pre, a.eventId = p ∧ a.correlationId = e'.correlationId := by
  obtain ⟨i, before, hmade, rfl⟩ := hplaced.exists_madeOf hids
  rw [hmade.parent] at hp
  refine (hmade.exists_pre_iff (P := fun a => a.eventId = p) fun _ => Iff.rfl).mpr ?_
  by_cases htype : events[i].eventType = .httpRequest
  · rw [parentAt_of_needsParent hneeds, parentFor, if_pos htype] at hp
    exact absurd hp (by simp)
  by_cases hquery : events[i].eventType = .pgResult ∧ TypeAhead events i .pgQuery
  · -- linked to a query ahead
    rw [parentAt_eq_query hneeds hquery.1 hquery.2] at hp
    obtain ⟨q, hq, rfl⟩ := Option.map_eq_some_iff.mp hp
    obtain ⟨j, hj, rfl⟩ := List.mem_map.mp (List.mem_filter.mp (List.mem_of_getLast? hq)).1
    obtain ⟨hplace, hahead⟩ := List.mem_filter.mp hj
    exact ⟨j, rfl, mem_placesOf.mp hplace, of_decide_eq_true hahead⟩
  · -- hung off the first request of the group, and some request sorts ahead
    rw [parentAt_eq_root hneeds htype hquery] at hp
    obtain ⟨r, hr, rfl⟩ := Option.map_eq_some_iff.mp hp
    obtain ⟨j, rfl, hc, hrequest, hfirst⟩ := exists_place_of_root hr
    obtain ⟨k, hkc, hk, hki⟩ := h i hneeds htype hquery ⟨_, List.getElem_mem j.isLt, hc, hrequest⟩
    refine ⟨j, rfl, hc, ?_⟩
    rcases hfirst k hkc hk with rfl | hjk
    · exact hki
    · exact hjk.trans hki

/-- Filled links are causal when the requests come first. -/
theorem causalLinks_of_requestsFirst (h : RequestsFirst events) :
    CausalLinks events (correlate events) where
  kept := by
    intro e e' pre hplaced hrecorded
    obtain ⟨i, before, hmade, rfl⟩ := hplaced.exists_madeOf hids
    rw [hmade.parent, parentAt_of_recorded hrecorded]
  requests := by
    intro e e' pre hplaced hneeds htype
    obtain ⟨i, before, hmade, rfl⟩ := hplaced.exists_madeOf hids
    rw [hmade.parent, parentAt_of_needsParent hneeds, parentFor, if_pos htype]
  causal := fun e e' pre hplaced hneeds p hp => causal_of_requestsFirst hids h hplaced hneeds hp
  results := by
    intro e e' pre hplaced hneeds hresult q hq
    obtain ⟨i, before, hmade, rfl⟩ := hplaced.exists_madeOf hids
    have hlast := hmade.lastQueryBefore
    rw [hq, Option.map_some] at hlast
    -- the query before the event in the output is one that sorts ahead
    have hahead : TypeAhead events i .pgQuery := by
      by_contra hnot
      rw [getLast?_queriesAt_eq_none_iff.mpr hnot] at hlast
      exact absurd hlast (by simp)
    rw [hmade.parent, parentAt_eq_query hneeds hresult hahead, ← hlast]
  others := by
    intro e e' pre hplaced hneeds htype hquery
    obtain ⟨i, before, hmade, rfl⟩ := hplaced.exists_madeOf hids
    -- and where there is none in the output, none sorts ahead
    have hno : ¬ (events[i].eventType = .pgResult ∧ TypeAhead events i .pgQuery) := by
      rintro ⟨hresult, hahead⟩
      have hlast := hmade.lastQueryBefore
      rw [hquery hresult, Option.map_none, eq_comm, Option.map_eq_none_iff,
        getLast?_queriesAt_eq_none_iff] at hlast
      exact hlast hahead
    have hc : e'.correlationId ∈ events.map Event.correlationId := by
      rw [hmade.correlationId]
      exact List.mem_map_of_mem (List.getElem_mem i.isLt)
    rw [hmade.parent, parentAt_eq_root hneeds htype hno, firstRequest_correlate hc,
      hmade.correlationId]

/-- A causal link to the request of a group needs a request ahead. -/
theorem requestsFirst_of_causalLinks (h : CausalLinks events (correlate events)) :
    RequestsFirst events := by
  rintro i hneeds htype hquery ⟨e₀, he₀, hc₀, hrequest₀⟩
  obtain ⟨e', pre, before, hplaced, hmade⟩ := exists_placedAt hids i
  have hroot := parentAt_eq_root hneeds htype hquery
  -- the group has a request, so the event is linked to the first one
  cases hr : (groupOf events events[i].correlationId).find? fun e => e.eventType = .httpRequest with
  | none =>
    have hmem : e₀ ∈ groupOf events events[i].correlationId := mem_groupOf.mpr ⟨he₀, hc₀⟩
    exact absurd (decide_eq_true hrequest₀) (List.find?_eq_none.mp hr e₀ hmem)
  | some r =>
    rw [hr, Option.map_some, ← hmade.parent] at hroot
    have hearlier := h.causal _ _ _ hplaced hneeds _ hroot
    rw [hmade.exists_pre_iff (P := fun a => a.eventId = r.eventId) fun _ => Iff.rfl] at hearlier
    obtain ⟨j, hid, hc, hahead⟩ := hearlier
    obtain ⟨k, rfl, -, hrequest, -⟩ := exists_place_of_root hr
    have hjk : j = k := place_inj hids hid
    subst hjk
    exact ⟨j, hc, hrequest, hahead⟩

/-- An empty parent is taken for no parent, and what is filled in is never empty. -/
theorem keepsEmptyParents_iff (hne : ∀ e ∈ events, e.eventId ≠ "") :
    KeepsEmptyParents events (correlate events) ↔ ∀ e ∈ events, e.parentEventId ≠ some "" := by
  constructor
  · intro h e he hempty
    obtain ⟨i, rfl⟩ := List.mem_iff_get.mp he
    obtain ⟨e', pre, before, hplaced, hmade⟩ := exists_placedAt hids i
    have hkept := h _ _ _ hplaced hempty
    rw [hmade.parent, parentAt_of_needsParent (.inr hempty)] at hkept
    exact parentFor_ne_empty
      (fun r hr => hne r (mem_groupOf.mp (List.mem_of_find?_eq_some hr)).1)
      (fun q hq => hne q (mem_of_mem_queriesAt (List.mem_of_getLast? hq))) hkept
  · intro h e e' pre hplaced hempty
    exact absurd hempty (h e hplaced.input)

/-- Every filled link points back exactly when every event that is hung off the request of its
group sorts after a request, and every recorded parent is kept when none of them is empty. -/
theorem causalLinks_correlate_iff (hne : ∀ e ∈ events, e.eventId ≠ "") :
    (CausalLinks events (correlate events) ↔ RequestsFirst events) ∧
      (CausalLinks events (correlate events) ∧ KeepsEmptyParents events (correlate events) ↔
        RequestsFirst events ∧ ∀ e ∈ events, e.parentEventId ≠ some "") := by
  have hlinks : CausalLinks events (correlate events) ↔ RequestsFirst events :=
    ⟨requestsFirst_of_causalLinks hids, causalLinks_of_requestsFirst hids⟩
  exact ⟨hlinks, and_congr hlinks (keepsEmptyParents_iff hids hne)⟩

end CausalLinks

/-- The response arrived before the SQL of its request. -/
def lateQueries : List Event :=
  [.brief .httpRequest "req" "a" 100, .brief .httpResponse "res" "a" 400,
    .brief .pgQuery "qry" "a" 200, .brief .pgResult "rst" "a" 300]

theorem causalLinks_lateQueries : CausalLinks lateQueries (correlate lateQueries) :=
  (causalLinks_correlate_iff (by decide) (by decide)).1.mpr (by decide)

/-- The clock of the application is behind that of the proxy. -/
def earlyQuery : List Event :=
  [.brief .httpRequest "req" "a" 100, .brief .pgQuery "qry" "a" 90]

/-- The query is linked to the request, which stands after it. -/
theorem not_causalLinks_earlyQuery :
    (earlyQuery.map Event.eventId).Nodup ∧ (∀ e ∈ earlyQuery, e.eventId ≠ "") ∧
      ¬ CausalLinks earlyQuery (correlate earlyQuery) := by
  refine ⟨by decide, by decide, fun h => ?_⟩
  have hplaced : PlacedAt earlyQuery (correlate earlyQuery) (.brief .pgQuery "qry" "a" 90)
      { Event.brief .pgQuery "qry" "a" 90 with sequence := 0, parentEventId := some "req" } [] :=
    { input := by simp [earlyQuery]
      eventId := rfl
      output := ⟨[{ Event.brief .httpRequest "req" "a" 100 with sequence := 1 }], rfl⟩ }
  obtain ⟨a, ha, -⟩ := h.causal _ _ _ hplaced (.inl rfl) "req" rfl
  exact absurd ha (by simp)

end InfraReplay
