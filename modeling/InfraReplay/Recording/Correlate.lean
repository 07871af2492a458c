import Mathlib.Data.List.Pairwise
import Mathlib.Tactic.Ring
import InfraReplay.Common.Dict
import InfraReplay.Common.Sort
import InfraReplay.Schema

/-!
# Merging a multi-source event stream into one causal order

`correlate` splits the events of a recording by correlation id, orders each group and the groups
by `(timestamp_ns, sequence)`, fills the parent links the producers could not know, and numbers
the result.

* `groups_eq`: the groups without the dictionary they are built in.
* `map_correlate_perm`: apart from sequence numbers and parent links, the output is a permutation
  of the input.
* `Finished` is what the output looks like (numbered, in blocks of one correlation id each, ordered
  by time, with every link filled that can be), and `correlate_eq_self` says that such a list is
  left alone, so correlation is idempotent (`correlate_correlate`).
-/

namespace InfraReplay

/-! ### The code -/

/-- The sort key `(timestamp_ns, sequence)`. -/
def Event.clock (e : Event) : ℤ ×ₗ ℤ := toLex (e.timestampNs, e.sequence)

/-- The clock of the first event of a group. -/
def groupClock (group : List Event) : ℤ ×ₗ ℤ :=
  (group.head?.map Event.clock).getD (toLex (0, 0))

/-- `_groups`. -/
def groups (events : List Event) : List (List Event) :=
  (((Dict.collect Event.correlationId events).map Prod.snd).map
    (List.sortBy Event.clock)).sortBy groupClock

/-- `_parent_for`. -/
def parentFor (event : Event) (root lastQuery : Option Event) : Option String :=
  if event.eventType = .httpRequest then none
  else if event.eventType = .pgResult ∧ lastQuery.isSome then lastQuery.map Event.eventId
  else root.map Event.eventId

/-- `a or b` on optional strings: the empty string is false. -/
def orElse (a b : Option String) : Option String :=
  if a = none ∨ a = some "" then b else a

/-- The loop of `_link` after the last query seen so far. -/
def linkFrom (root : Option Event) : Option Event → List Event → List Event
  | _, [] => []
  | lastQuery, event :: group =>
    { event with
      parentEventId := orElse event.parentEventId (parentFor event root lastQuery) } ::
      linkFrom root (if event.eventType = .pgQuery then some event else lastQuery) group

/-- A map that keeps types keeps which event is the last query. -/
theorem lastQuery_map {f : Event → Event} (hf : ∀ e, (f e).eventType = e.eventType) {e : Event}
    {lastQuery : Option Event} :
    (if (f e).eventType = .pgQuery then some (f e) else lastQuery.map f) =
      (if e.eventType = .pgQuery then some e else lastQuery).map f := by
  rw [hf]
  split_ifs <;> rfl

/-- `_link`. -/
def link (group : List Event) : List Event :=
  linkFrom (group.find? fun e => e.eventType = .httpRequest) none group

/-- The loop of `correlate` over the events of all groups, from a sequence number on. -/
def numberFrom : ℤ → List Event → List Event
  | _, [] => []
  | n, event :: events => { event with sequence := n } :: numberFrom (n + 1) events

/-- `correlate`. -/
def correlate (events : List Event) : List Event :=
  numberFrom 0 ((groups events).flatMap link)

/-! ### Clocks -/

/-- The clock of an event is ordered by the timestamp first. -/
theorem Event.timestampNs_le {a b : Event} (h : a.clock ≤ b.clock) :
    a.timestampNs ≤ b.timestampNs := by
  rcases Prod.Lex.le_iff.mp h with hlt | heq
  · exact hlt.le
  · exact heq.1.le

/-- An event that is no later in time and in sequence is no later by the clock. -/
theorem Event.clock_le {a b : Event} (htime : a.timestampNs ≤ b.timestampNs)
    (hsequence : a.sequence ≤ b.sequence) : a.clock ≤ b.clock := by
  apply Prod.Lex.le_iff.mpr
  rcases htime.lt_or_eq with hlt | heq
  · exact .inl hlt
  · exact .inr ⟨heq, hsequence⟩

/-! ### Numbering -/

/-- Numbering keeps the number of events. -/
@[simp]
theorem length_numberFrom (n : ℤ) (events : List Event) :
    (numberFrom n events).length = events.length := by
  induction events generalizing n with
  | nil => rfl
  | cons e events ih => simp [numberFrom, ih]

/-- Numbers go on behind what is numbered. -/
theorem numberFrom_append (n : ℤ) (l l' : List Event) :
    numberFrom n (l ++ l') = numberFrom n l ++ numberFrom (n + l.length) l' := by
  induction l generalizing n with
  | nil => simp [numberFrom]
  | cons e l ih =>
    have hn : n + 1 + (l.length : ℤ) = n + ((l.length + 1 : ℕ) : ℤ) := by
      push_cast
      ring
    simp only [List.cons_append, numberFrom, ih, List.length_cons, hn]

/-- Only the last numbering counts. -/
@[simp]
theorem numberFrom_numberFrom (n m : ℤ) (events : List Event) :
    numberFrom n (numberFrom m events) = numberFrom n events := by
  induction events generalizing n m with
  | nil => rfl
  | cons e events ih => simp [numberFrom, ih]

/-- Numbering changes sequence numbers only. -/
theorem map_numberFrom {β : Type} {f : Event → β}
    (hf : ∀ (e : Event) (n : ℤ), f { e with sequence := n } = f e) (n : ℤ) (events : List Event) :
    (numberFrom n events).map f = events.map f := by
  induction events generalizing n with
  | nil => rfl
  | cons e events ih => simp [numberFrom, hf, ih]

/-- The numbers go up by one from the start. -/
theorem map_sequence_numberFrom (n : ℤ) (events : List Event) :
    (numberFrom n events).map Event.sequence =
      (List.range events.length).map fun i : ℕ => n + (i : ℤ) := by
  induction events generalizing n with
  | nil => rfl
  | cons e events ih =>
    rw [numberFrom, List.map_cons, ih, List.length_cons, List.range_succ_eq_map, List.map_cons,
      List.map_map]
    simp only [Nat.cast_zero, add_zero, List.cons.injEq, true_and]
    refine List.map_congr_left fun i _ => ?_
    simp only [Function.comp_apply, Nat.cast_succ]
    ring

/-- Numbers increase. -/
theorem pairwise_sequence_numberFrom (n : ℤ) (events : List Event) :
    (numberFrom n events).Pairwise fun a b => a.sequence < b.sequence := by
  have h := map_sequence_numberFrom n events
  rw [← List.pairwise_map (f := Event.sequence) (R := (· < ·)), h, List.pairwise_map]
  exact List.pairwise_lt_range.imp fun hab => by omega

/-! ### Linking -/

/-- Linking changes parent links only. -/
theorem map_linkFrom {β : Type} {f : Event → β}
    (hf : ∀ (e : Event) (p : Option String), f { e with parentEventId := p } = f e)
    (root lastQuery : Option Event) (group : List Event) :
    (linkFrom root lastQuery group).map f = group.map f := by
  induction group generalizing lastQuery with
  | nil => rfl
  | cons e group ih => simp [linkFrom, hf, ih]

/-- Linking changes parents only. -/
theorem map_link {β : Type} {f : Event → β}
    (hf : ∀ (e : Event) (p : Option String), f { e with parentEventId := p } = f e)
    (group : List Event) : (link group).map f = group.map f :=
  map_linkFrom hf _ _ group

/-- A parent that is filled in stays. -/
@[simp]
theorem orElse_orElse (a b : Option String) : orElse (orElse a b) b = orElse a b := by
  unfold orElse
  split_ifs <;> simp_all

/-- The parent `_parent_for` proposes depends on the event's type and on two ids. -/
theorem parentFor_congr {event event' : Event} {root root' lastQuery lastQuery' : Option Event}
    (htype : event'.eventType = event.eventType)
    (hroot : root'.map Event.eventId = root.map Event.eventId)
    (hquery : lastQuery'.map Event.eventId = lastQuery.map Event.eventId) :
    parentFor event' root' lastQuery' = parentFor event root lastQuery := by
  have hsome : lastQuery'.isSome = lastQuery.isSome := by
    have := congrArg Option.isSome hquery
    simpa using this
  rw [parentFor, parentFor, htype, hroot, hquery, hsome]

/-- Two events that linking cannot tell apart, with the same recorded parent. -/
def SameLinks (e e' : Event) : Prop :=
  e'.eventId = e.eventId ∧ e'.eventType = e.eventType ∧ e'.parentEventId = e.parentEventId

/-- Linking a linked group again changes nothing. -/
theorem linkFrom_eq_self {root root' lastQuery lastQuery' : Option Event}
    {group group' : List Event} (hroot : root'.map Event.eventId = root.map Event.eventId)
    (hquery : lastQuery'.map Event.eventId = lastQuery.map Event.eventId)
    (h : List.Forall₂ SameLinks (linkFrom root lastQuery group) group') :
    linkFrom root' lastQuery' group' = group' := by
  induction group generalizing lastQuery lastQuery' group' with
  | nil =>
    cases h
    rfl
  | cons e group ih =>
    rw [linkFrom] at h
    cases h with
    | @cons _ e' _ group' hhead htail =>
      obtain ⟨hid, htype, hparent⟩ := hhead
      simp only at hid htype hparent
      -- the two runs go on with last queries of one id
      have hlast : (if e'.eventType = .pgQuery then some e' else lastQuery').map Event.eventId =
          (if e.eventType = .pgQuery then some e else lastQuery).map Event.eventId := by
        rw [htype]
        split_ifs <;> simp [hid, hquery]
      have hrest := ih hlast htail
      rw [linkFrom, hrest, hparent, parentFor_congr htype hroot hquery, orElse_orElse, ← hparent]

/-- The first request of a group is found at the same place after linking. -/
theorem find?_sameLinks {group group' : List Event} (h : List.Forall₂ SameLinks group group') :
    (group'.find? fun e => e.eventType = .httpRequest).map Event.eventId =
      (group.find? fun e => e.eventType = .httpRequest).map Event.eventId := by
  induction h with
  | nil => rfl
  | cons hhead _ ih =>
    obtain ⟨hid, htype, -⟩ := hhead
    rw [List.find?_cons, List.find?_cons, htype]
    split
    · simp [hid]
    · exact ih

/-! ### Groups -/

/-- The events of one correlation id, in clock order. -/
def groupOf (events : List Event) (correlationId : String) : List Event :=
  (events.filter fun e => e.correlationId = correlationId).sortBy Event.clock

/-- The groups without the dictionary they are built in. -/
theorem groups_eq (events : List Event) :
    groups events =
      ((events.map Event.correlationId).firstSeen.map (groupOf events)).sortBy groupClock := by
  rw [groups, Dict.collect_eq, List.map_map, List.map_map]
  rfl

/-- A group holds the events with its correlation id. -/
theorem mem_groupOf {events : List Event} {c : String} {e : Event} :
    e ∈ groupOf events c ↔ e ∈ events ∧ e.correlationId = c := by
  simp [groupOf]

/-- Every correlation id has its group, and there are no others. -/
theorem mem_groups {events group : List Event} :
    group ∈ groups events ↔ ∃ c ∈ events.map Event.correlationId, groupOf events c = group := by
  rw [groups_eq, List.mem_sortBy, List.mem_map]
  simp only [List.mem_firstSeen]

/-- No group is empty. -/
theorem groupOf_ne_nil {events : List Event} {c : String}
    (h : c ∈ events.map Event.correlationId) : groupOf events c ≠ [] := by
  obtain ⟨e, he, rfl⟩ := List.mem_map.mp h
  exact List.ne_nil_of_mem (mem_groupOf.mpr ⟨he, rfl⟩)

/-- Sorting inside the groups and sorting the groups keeps every event. -/
theorem flatten_groups_perm (events : List Event) : (groups events).flatten.Perm events := by
  have hsort : ∀ gs : List (List Event),
      (gs.map (List.sortBy Event.clock)).flatten.Perm gs.flatten := by
    intro gs
    induction gs with
    | nil => simp
    | cons g gs ih => exact (List.sortBy_perm _ g).append ih
  exact ((List.sortBy_perm _ _).flatten).trans
    ((hsort _).trans (Dict.flatten_collect_perm _ events))

/-- Apart from sequence numbers and parent links, the output lists the groups. -/
theorem map_correlate {β : Type} {f : Event → β}
    (hseq : ∀ (e : Event) (n : ℤ), f { e with sequence := n } = f e)
    (hparent : ∀ (e : Event) (p : Option String), f { e with parentEventId := p } = f e)
    (events : List Event) : (correlate events).map f = (groups events).flatten.map f := by
  rw [correlate, map_numberFrom hseq, List.map_flatMap, List.map_flatten, ← List.flatMap_def]
  exact List.flatMap_congr fun g _ => map_link hparent g

/-- Apart from sequence numbers and parent links, correlation permutes the events. -/
theorem map_correlate_perm {β : Type} {f : Event → β}
    (hseq : ∀ (e : Event) (n : ℤ), f { e with sequence := n } = f e)
    (hparent : ∀ (e : Event) (p : Option String), f { e with parentEventId := p } = f e)
    (events : List Event) : ((correlate events).map f).Perm (events.map f) := by
  rw [map_correlate hseq hparent]
  exact (flatten_groups_perm events).map f

/-- An event without its place and its parent. -/
def Event.bare (e : Event) : Event := { e with sequence := 0, parentEventId := none }

/-- An event and what is made of it: a new place, maybe a new parent, and nothing else. -/
def Resequenced (e e' : Event) : Prop :=
  e' = { e with sequence := e'.sequence, parentEventId := e'.parentEventId }

/-- Events without their places are the same when they differ in nothing else. -/
theorem bare_eq_iff {e e' : Event} : e.bare = e'.bare ↔ Resequenced e e' := by
  unfold Event.bare Resequenced
  constructor
  · intro h
    cases e
    cases e'
    simp_all
  · intro h
    rw [h]

/-- The id is not among what `bare` forgets. -/
theorem eventId_of_bare {e e' : Event} (h : e.bare = e'.bare) : e.eventId = e'.eventId := by
  rw [bare_eq_iff.mp h]

/-- Up to places and parents, the correlated events are the groups in their order. -/
theorem map_bare_correlate (events : List Event) :
    (correlate events).map Event.bare = (groups events).flatten.map Event.bare :=
  map_correlate (fun _ _ => rfl) (fun _ _ => rfl) events

/-- An event of the output is an event of the input at a new place under a new parent. -/
theorem mem_correlate {events : List Event} {e : Event} (h : e ∈ correlate events) :
    ∃ e₀ ∈ events, e = { e₀ with sequence := e.sequence, parentEventId := e.parentEventId } := by
  have hperm := map_correlate_perm (f := Event.bare) (fun _ _ => rfl) (fun _ _ => rfl) events
  obtain ⟨e₀, he₀, heq⟩ := List.mem_map.mp (hperm.mem_iff.mp (List.mem_map_of_mem h))
  exact ⟨e₀, he₀, bare_eq_iff.mp heq⟩

/-- Numbering changes the places only. -/
theorem mem_numberFrom {n : ℤ} {events : List Event} {e : Event} (h : e ∈ numberFrom n events) :
    ∃ e₀ ∈ events, ∃ m, e = { e₀ with sequence := m } := by
  induction events generalizing n with
  | nil => cases h
  | cons e₀ events ih =>
    rcases List.mem_cons.mp h with rfl | h
    · exact ⟨e₀, List.mem_cons_self, n, rfl⟩
    · obtain ⟨e₁, he₁, hm⟩ := ih h
      exact ⟨e₁, List.mem_cons_of_mem _ he₁, hm⟩

/-- Linking keeps a recorded parent. -/
theorem mem_linkFrom {root lastQuery : Option Event} {group : List Event} {e : Event}
    (h : e ∈ linkFrom root lastQuery group) :
    ∃ e₀ ∈ group, ∃ parent, e = { e₀ with parentEventId := orElse e₀.parentEventId parent } := by
  induction group generalizing lastQuery with
  | nil => cases h
  | cons e₀ group ih =>
    rcases List.mem_cons.mp h with rfl | h
    · exact ⟨e₀, List.mem_cons_self, _, rfl⟩
    · obtain ⟨e₁, he₁, hparent⟩ := ih h
      exact ⟨e₁, List.mem_cons_of_mem _ he₁, hparent⟩

/-- An event of the output has the parent that was recorded, when there was one. -/
theorem recorded_of_mem_correlate {events : List Event} {e : Event} (h : e ∈ correlate events) :
    ∃ e₀ ∈ events, e₀.eventId = e.eventId ∧
      ∀ parent, parent ≠ "" → e₀.parentEventId = some parent → e.parentEventId = some parent := by
  obtain ⟨e₁, he₁, m, rfl⟩ := mem_numberFrom h
  obtain ⟨group, hgroup, hlinked⟩ := List.mem_flatMap.mp he₁
  obtain ⟨e₀, he₀, proposed, rfl⟩ := mem_linkFrom hlinked
  refine ⟨e₀, (flatten_groups_perm events).mem_iff.mp (List.mem_flatten.mpr ⟨group, hgroup, he₀⟩),
    rfl, fun parent hne hparent => ?_⟩
  show orElse e₀.parentEventId proposed = some parent
  rw [hparent, orElse, if_neg (by simp [hne])]

/-- An event of the input is one of the output, at a new place under a new parent. -/
theorem exists_mem_correlate {events : List Event} {e : Event} (h : e ∈ events) :
    ∃ n parent, { e with sequence := n, parentEventId := parent } ∈ correlate events := by
  have hperm := map_correlate_perm (f := Event.bare) (fun _ _ => rfl) (fun _ _ => rfl) events
  obtain ⟨e', he', heq⟩ := List.mem_map.mp (hperm.mem_iff.mpr (List.mem_map_of_mem h))
  exact ⟨e'.sequence, e'.parentEventId, bare_eq_iff.mp heq.symm ▸ he'⟩

/-- No event is lost or made. -/
theorem length_correlate (events : List Event) :
    (correlate events).length = events.length := by
  have h := map_correlate_perm (f := fun _ => ()) (fun _ _ => rfl) (fun _ _ => rfl) events
  simpa using h.length_eq

/-- The ids are those of the events. -/
theorem map_eventId_correlate_perm (events : List Event) :
    ((correlate events).map Event.eventId).Perm (events.map Event.eventId) :=
  map_correlate_perm (fun _ _ => rfl) (fun _ _ => rfl) events

/-- What holds of the parents and of the ids in a run of events holds of the parents after
linking. -/
theorem forall_parent_linkFrom {P : Option String → Prop} (hnone : P none)
    {root lastQuery : Option Event} {group : List Event}
    (hroot : ∀ e ∈ root, P (some e.eventId)) (hlast : ∀ e ∈ lastQuery, P (some e.eventId))
    (hgroup : ∀ e ∈ group, P (some e.eventId) ∧ P e.parentEventId) :
    ∀ e ∈ linkFrom root lastQuery group, P e.parentEventId := by
  induction group generalizing lastQuery with
  | nil => simp [linkFrom]
  | cons e₀ group ih =>
    have hfound : ∀ o : Option Event, (∀ e ∈ o, P (some e.eventId)) → P (o.map Event.eventId) := by
      intro o ho
      cases o with
      | none => exact hnone
      | some e => exact ho e rfl
    have hfor : P (parentFor e₀ root lastQuery) := by
      unfold parentFor
      split_ifs
      · exact hnone
      · exact hfound lastQuery hlast
      · exact hfound root hroot
    intro e he
    rw [linkFrom] at he
    rcases List.mem_cons.mp he with rfl | he
    · unfold orElse
      split_ifs
      · exact hfor
      · exact (hgroup e₀ (by simp)).2
    · -- the last query of the rest is this event or the one before
      refine ih (fun q hq => ?_) (fun e he => hgroup e (List.mem_cons_of_mem _ he)) e he
      split_ifs at hq
      · rw [← Option.mem_some.mp hq]
        exact (hgroup e₀ (by simp)).1
      · exact hlast q hq

/-- What holds of the parents and of the ids of the input holds of the parents of the output. -/
theorem forall_parent_correlate {P : Option String → Prop} (hnone : P none) {events : List Event}
    (h : ∀ e ∈ events, P (some e.eventId) ∧ P e.parentEventId) :
    ∀ e ∈ correlate events, P e.parentEventId := by
  have hlinked : ∀ e ∈ (groups events).flatMap link, P e.parentEventId := by
    intro e he
    obtain ⟨group, hgroup, he⟩ := List.mem_flatMap.mp he
    have hsub : ∀ e ∈ group, P (some e.eventId) ∧ P e.parentEventId := fun e he =>
      h e ((flatten_groups_perm events).mem_iff.mp (List.mem_flatten_of_mem hgroup he))
    exact forall_parent_linkFrom hnone (fun e he => (hsub e (List.mem_of_find?_eq_some he)).1)
      (by simp) hsub e he
  -- numbering leaves the parents alone
  have hparents := map_numberFrom (f := Event.parentEventId) (fun _ _ => rfl) 0
    ((groups events).flatMap link)
  intro e he
  have hmem : e.parentEventId ∈ ((groups events).flatMap link).map Event.parentEventId :=
    hparents ▸ List.mem_map_of_mem he
  obtain ⟨e', he', heq⟩ := List.mem_map.mp hmem
  rw [← heq]
  exact hlinked e' he'

/-- The sequence numbers of the output are `0`, `1`, and so on. -/
theorem map_sequence_correlate (events : List Event) :
    (correlate events).map Event.sequence =
      (List.range events.length).map fun i : ℕ => (i : ℤ) := by
  have hlen : ((groups events).flatMap link).length = events.length := by
    rw [← length_correlate events, correlate, length_numberFrom]
  rw [correlate, map_sequence_numberFrom, hlen]
  simp

/-! ### Arrival order -/

/-- No two events of one correlation group share a clock, and the earliest events of different
groups have different clocks. -/
structure ClocksDistinct (events : List Event) : Prop where
  within : events.Pairwise fun a b => a.correlationId = b.correlationId → a.clock ≠ b.clock
  between : ∀ a ∈ events, ∀ b ∈ events, a.correlationId ≠ b.correlationId →
    (∀ e ∈ events, e.correlationId = a.correlationId → a.clock ≤ e.clock) →
    (∀ e ∈ events, e.correlationId = b.correlationId → b.clock ≤ e.clock) →
      a.clock ≠ b.clock

/-- Whether clocks are distinct does not depend on the order. -/
theorem ClocksDistinct.perm {events events' : List Event} (h : ClocksDistinct events)
    (hperm : events.Perm events') : ClocksDistinct events' where
  within := (hperm.pairwise_iff fun hab heq => (hab heq.symm).symm).mp h.within
  between a ha b hb hab hmin hmin' :=
    h.between a (hperm.mem_iff.mpr ha) b (hperm.mem_iff.mpr hb) hab
      (fun e he => hmin e (hperm.mem_iff.mp he)) fun e he => hmin' e (hperm.mem_iff.mp he)

/-- The condition looks at correlation ids and clocks only. -/
theorem ClocksDistinct.congr {events events' : List Event} (h : ClocksDistinct events)
    (hkeys : (events'.map fun e => (e.correlationId, e.clock)) =
      events.map fun e => (e.correlationId, e.clock)) : ClocksDistinct events' := by
  have hfind : ∀ {l l' : List Event},
      (l'.map fun e => (e.correlationId, e.clock)) = (l.map fun e => (e.correlationId, e.clock)) →
        ∀ e' ∈ l', ∃ e ∈ l, e.correlationId = e'.correlationId ∧ e.clock = e'.clock := by
    intro l l' hl e' he'
    have hmem := List.mem_map_of_mem (f := fun e : Event => (e.correlationId, e.clock)) he'
    rw [hl] at hmem
    obtain ⟨e, he, heq⟩ := List.mem_map.mp hmem
    exact ⟨e, he, (Prod.ext_iff.mp heq).1, (Prod.ext_iff.mp heq).2⟩
  constructor
  case within =>
    have hwithin := h.within
    rw [← List.pairwise_map (f := fun e : Event => (e.correlationId, e.clock))
      (R := fun p q => p.1 = q.1 → p.2 ≠ q.2), ← hkeys, List.pairwise_map] at hwithin
    exact hwithin
  case between =>
    intro a ha b hb hab hmin hmin'
    obtain ⟨a₀, ha₀, hca, hka⟩ := hfind hkeys a ha
    obtain ⟨b₀, hb₀, hcb, hkb⟩ := hfind hkeys b hb
    rw [← hca, ← hcb] at hab
    rw [← hka, ← hkb]
    -- the earliest events of the one list are the earliest of the other
    refine h.between a₀ ha₀ b₀ hb₀ hab (fun e he hc => ?_) fun e he hc => ?_
    · obtain ⟨e', he', hce, hke⟩ := hfind hkeys.symm e he
      rw [hka, ← hke]
      exact hmin e' he' (by rw [hce, hc, hca])
    · obtain ⟨e', he', hce, hke⟩ := hfind hkeys.symm e he
      rw [hkb, ← hke]
      exact hmin' e' he' (by rw [hce, hc, hcb])

/-- The first event of a group is its earliest. -/
theorem head_groupOf {events : List Event} {c : String}
    (h : c ∈ events.map Event.correlationId) :
    ∃ e ∈ events, e.correlationId = c ∧ groupClock (groupOf events c) = e.clock ∧
      ∀ e' ∈ events, e'.correlationId = c → e.clock ≤ e'.clock := by
  have hsorted := List.sortBy_pairwise Event.clock
    (events.filter fun e => e.correlationId = c)
  cases hg : groupOf events c with
  | nil => exact absurd hg (groupOf_ne_nil h)
  | cons e rest =>
    have he : e ∈ groupOf events c := by simp [hg]
    obtain ⟨hmem, hc⟩ := mem_groupOf.mp he
    refine ⟨e, hmem, hc, rfl, fun e' he' hc' => ?_⟩
    have hmem' : e' ∈ groupOf events c := mem_groupOf.mpr ⟨he', hc'⟩
    -- the group is sorted, so its first event is below all others
    rw [groupOf] at hg
    rw [hg, List.pairwise_cons] at hsorted
    rw [groupOf, hg] at hmem'
    rcases List.mem_cons.mp hmem' with rfl | hrest
    · exact le_rfl
    · exact hsorted.1 e' hrest

/-- With distinct clocks inside the group, its order does not depend on the order of arrival. -/
theorem groupOf_perm {events events' : List Event} (h : ClocksDistinct events)
    (hperm : events.Perm events') (c : String) : groupOf events c = groupOf events' c := by
  refine List.sortBy_eq_of_perm (hperm.filter _) fun a ha b hb hab => ?_
  obtain ⟨ha, hca⟩ := List.mem_filter.mp ha
  obtain ⟨hb, hcb⟩ := List.mem_filter.mp hb
  by_contra hne
  have : Std.Symm fun a b : Event => a.correlationId = b.correlationId → a.clock ≠ b.clock :=
    ⟨fun a b hab heq => (hab heq.symm).symm⟩
  exact h.within.forall ha hb hne ((of_decide_eq_true hca).trans (of_decide_eq_true hcb).symm) hab

/-- With distinct clocks, the groups and their order do not depend on the order of arrival. -/
theorem groups_perm {events events' : List Event} (h : ClocksDistinct events)
    (hperm : events.Perm events') : groups events = groups events' := by
  rw [groups_eq, groups_eq, ← funext (groupOf_perm h hperm)]
  refine List.sortBy_eq_of_perm ((hperm.map _).firstSeen.map _) fun g hg g' hg' heq => ?_
  simp only [List.mem_map, List.mem_firstSeen] at hg hg'
  obtain ⟨c, hc, rfl⟩ := hg
  obtain ⟨c', hc', rfl⟩ := hg'
  by_contra hne
  -- two groups with one clock would have two earliest events with one clock
  have hcc : c ≠ c' := fun h => hne (by rw [h])
  obtain ⟨e, he, rfl, hclock, hmin⟩ := head_groupOf (List.mem_map.mpr hc)
  obtain ⟨e', he', rfl, hclock', hmin'⟩ := head_groupOf (List.mem_map.mpr hc')
  exact h.between e he e' he' hcc hmin hmin' (hclock.symm.trans (heq.trans hclock'))

/-- Correlation does not depend on the order of arrival. -/
theorem correlate_perm {events events' : List Event} (h : ClocksDistinct events)
    (hperm : events.Perm events') : correlate events = correlate events' := by
  rw [correlate, correlate, groups_perm h hperm]

/-! ### Correlating twice -/

/-- What the order of a group looks at. -/
def stamps (group : List Event) : List (String × ℤ) :=
  group.map fun e => (e.correlationId, e.timestampNs)

/-- Blocks of one correlation id each, the blocks and the events of a block in time order. -/
structure TimeOrdered (blocks : List (List (String × ℤ))) : Prop where
  ne_nil : ∀ b ∈ blocks, b ≠ []
  same : ∀ b ∈ blocks, ∀ p ∈ b, ∀ q ∈ b, p.1 = q.1
  apart : blocks.Pairwise fun b b' => ∀ p ∈ b, ∀ q ∈ b', p.1 ≠ q.1
  within : ∀ b ∈ blocks, b.Pairwise fun p q => p.2 ≤ q.2
  between : blocks.Pairwise fun b b' => ∀ p ∈ b.head?, ∀ q ∈ b'.head?, p.2 ≤ q.2

/-- What correlation makes of a list: numbered from `0`, in time-ordered blocks with every link
filled that can be. -/
structure Finished (events : List Event) : Prop where
  numbered : numberFrom 0 events = events
  blocks : ∃ blocks : List (List Event), blocks.flatten = events ∧
    TimeOrdered (blocks.map stamps) ∧ ∀ b ∈ blocks, link b = b

/-- Numbering changes no timestamp. -/
theorem stamps_numberFrom (n : ℤ) (group : List Event) :
    stamps (numberFrom n group) = stamps group :=
  map_numberFrom (fun _ _ => rfl) n group

/-- Linking changes no timestamp. -/
theorem stamps_link (group : List Event) : stamps (link group) = stamps group :=
  map_link (fun _ _ => rfl) group

/-- A group's stamps are those of its events. -/
theorem mem_stamps {group : List Event} {p : String × ℤ} :
    p ∈ stamps group ↔ ∃ e ∈ group, (e.correlationId, e.timestampNs) = p := by
  simp [stamps]

/-- The groups are in time order. -/
theorem timeOrdered_groups (events : List Event) :
    TimeOrdered ((groups events).map stamps) := by
  constructor
  case ne_nil =>
    intro b hb
    obtain ⟨g, hg, rfl⟩ := List.mem_map.mp hb
    obtain ⟨c, hc, rfl⟩ := mem_groups.mp hg
    simpa [stamps] using groupOf_ne_nil hc
  case same =>
    intro b hb p hp q hq
    obtain ⟨g, hg, rfl⟩ := List.mem_map.mp hb
    obtain ⟨c, hc, rfl⟩ := mem_groups.mp hg
    obtain ⟨e, he, rfl⟩ := mem_stamps.mp hp
    obtain ⟨e', he', rfl⟩ := mem_stamps.mp hq
    exact (mem_groupOf.mp he).2.trans (mem_groupOf.mp he').2.symm
  case apart =>
    -- no order is asked for, so the groups may be taken as they were collected
    rw [List.pairwise_map, groups_eq]
    refine (List.Perm.pairwise_iff ?_ (List.sortBy_perm groupClock _).symm).mp ?_
    · exact fun h p hp q hq => (h q hq p hp).symm
    · rw [List.pairwise_map]
      refine (List.nodup_firstSeen _).imp fun {c c'} hne p hp q hq => ?_
      obtain ⟨e, he, rfl⟩ := mem_stamps.mp hp
      obtain ⟨e', he', rfl⟩ := mem_stamps.mp hq
      rwa [(mem_groupOf.mp he).2, (mem_groupOf.mp he').2]
  case within =>
    intro b hb
    obtain ⟨g, hg, rfl⟩ := List.mem_map.mp hb
    obtain ⟨c, -, rfl⟩ := mem_groups.mp hg
    rw [stamps, List.pairwise_map]
    exact (List.sortBy_pairwise Event.clock _).imp Event.timestampNs_le
  case between =>
    rw [List.pairwise_map, groups]
    refine (List.sortBy_pairwise groupClock _).imp fun {g g'} h p hp q hq => ?_
    rw [stamps, List.head?_map, Option.mem_map] at hp hq
    obtain ⟨e, he, rfl⟩ := hp
    obtain ⟨e', he', rfl⟩ := hq
    rw [groupClock, groupClock, Option.mem_def.mp he, Option.mem_def.mp he'] at h
    exact Event.timestampNs_le h

/-- Numbering block by block. -/
def numberBlocks : ℤ → List (List Event) → List (List Event)
  | _, [] => []
  | n, b :: bs => numberFrom n b :: numberBlocks (n + b.length) bs

/-- Numbering block by block is numbering through. -/
theorem flatten_numberBlocks (n : ℤ) (blocks : List (List Event)) :
    (numberBlocks n blocks).flatten = numberFrom n blocks.flatten := by
  induction blocks generalizing n with
  | nil => rfl
  | cons b bs ih =>
    rw [numberBlocks, List.flatten_cons, List.flatten_cons, numberFrom_append, ih]

/-- Numbering keeps the stamps. -/
theorem map_stamps_numberBlocks (n : ℤ) (blocks : List (List Event)) :
    (numberBlocks n blocks).map stamps = blocks.map stamps := by
  induction blocks generalizing n with
  | nil => rfl
  | cons b bs ih => rw [numberBlocks, List.map_cons, List.map_cons, stamps_numberFrom, ih]

/-- A numbered block is a block, numbered from somewhere. -/
theorem mem_numberBlocks {n : ℤ} {blocks : List (List Event)} {b : List Event}
    (h : b ∈ numberBlocks n blocks) : ∃ b₀ ∈ blocks, ∃ m, b = numberFrom m b₀ := by
  induction blocks generalizing n with
  | nil => simp [numberBlocks] at h
  | cons b₀ bs ih =>
    rcases List.mem_cons.mp h with rfl | h
    · exact ⟨b₀, by simp, n, rfl⟩
    · obtain ⟨b₁, hb₁, m, rfl⟩ := ih h
      exact ⟨b₁, by simp [hb₁], m, rfl⟩

/-- Numbering changes no link. -/
theorem sameLinks_numberFrom (n : ℤ) (group : List Event) :
    List.Forall₂ SameLinks group (numberFrom n group) := by
  induction group generalizing n with
  | nil => exact .nil
  | cons e group ih => exact .cons ⟨rfl, rfl, rfl⟩ (ih _)

/-- A linked group stays as it is when it is linked again under new numbers. -/
theorem link_numberFrom_link (n : ℤ) (group : List Event) :
    link (numberFrom n (link group)) = numberFrom n (link group) := by
  have hroot : ((link group).find? fun e => e.eventType = .httpRequest).map Event.eventId =
      (group.find? fun e => e.eventType = .httpRequest).map Event.eventId := by
    have h := map_link (f := fun e => (e.eventType, e.eventId)) (fun _ _ => rfl) group
    have hfind : ∀ g : List Event,
        (g.find? fun e => e.eventType = .httpRequest).map Event.eventId =
          ((g.map fun e => (e.eventType, e.eventId)).find? fun p => p.1 = .httpRequest).map
            Prod.snd := by
      intro g
      rw [List.find?_map, Option.map_map]
      rfl
    rw [hfind, h, ← hfind]
  -- renumbering moves neither the root nor the links
  have hagain := find?_sameLinks (sameLinks_numberFrom n (link group))
  have hsame : List.Forall₂ SameLinks
      (linkFrom (group.find? fun e => e.eventType = .httpRequest) none group)
      (numberFrom n (link group)) := sameLinks_numberFrom n (link group)
  exact linkFrom_eq_self (hagain.trans hroot) rfl hsame

/-- Correlation leaves a finished list. -/
theorem finished_correlate (events : List Event) : Finished (correlate events) where
  numbered := numberFrom_numberFrom 0 0 _
  blocks := by
    refine ⟨numberBlocks 0 ((groups events).map link), ?_, ?_, ?_⟩
    · rw [flatten_numberBlocks, correlate, List.flatMap_def]
    · have hmap : ((groups events).map link).map stamps = (groups events).map stamps := by
        rw [List.map_map]
        exact List.map_congr_left fun g _ => stamps_link g
      rw [map_stamps_numberBlocks, hmap]
      exact timeOrdered_groups events
    · intro b hb
      obtain ⟨b₀, hb₀, m, rfl⟩ := mem_numberBlocks hb
      obtain ⟨g, -, rfl⟩ := List.mem_map.mp hb₀
      exact link_numberFrom_link m g

/-- Sequence numbers of a finished list grow strictly. -/
theorem Finished.pairwise_sequence {events : List Event} (h : Finished events) :
    events.Pairwise fun a b => a.sequence < b.sequence := by
  rw [← h.numbered]
  exact pairwise_sequence_numberFrom 0 events

/-- The correlation id of a block. -/
def blockId (block : List Event) : String :=
  (block.head?.map Event.correlationId).getD ""

section Blocks

variable {blocks : List (List Event)} (h : TimeOrdered (blocks.map stamps))

include h

/-- No block is empty. -/
theorem TimeOrdered.block_ne_nil {b : List Event} (hb : b ∈ blocks) : b ≠ [] := by
  have := h.ne_nil _ (List.mem_map_of_mem hb)
  simpa [stamps] using this

/-- Every event of a block carries the block's correlation id. -/
theorem TimeOrdered.correlationId_eq {b : List Event} (hb : b ∈ blocks) {e : Event}
    (he : e ∈ b) : e.correlationId = blockId b := by
  obtain ⟨e₀, rest, rfl⟩ := List.exists_cons_of_ne_nil (h.block_ne_nil hb)
  exact h.same _ (List.mem_map_of_mem hb) _ (List.mem_map_of_mem he) (_, e₀.timestampNs)
    (mem_stamps.mpr ⟨e₀, by simp, rfl⟩)

/-- Different blocks carry different correlation ids. -/
theorem TimeOrdered.pairwise_blockId : blocks.Pairwise fun b b' => blockId b ≠ blockId b' := by
  have hapart := h.apart
  rw [List.pairwise_map] at hapart
  refine List.Pairwise.imp_of_mem (fun {b b'} hb hb' hne => ?_) hapart
  obtain ⟨e, rest, rfl⟩ := List.exists_cons_of_ne_nil (h.block_ne_nil hb)
  obtain ⟨e', rest', rfl⟩ := List.exists_cons_of_ne_nil (h.block_ne_nil hb')
  exact hne (_, e.timestampNs) (mem_stamps.mpr ⟨e, by simp, rfl⟩) (_, e'.timestampNs)
    (mem_stamps.mpr ⟨e', by simp, rfl⟩)

/-- The groups appear in the order of the blocks. -/
theorem TimeOrdered.firstSeen_flatten :
    (blocks.flatten.map Event.correlationId).firstSeen = blocks.map blockId := by
  induction blocks using List.reverseRecOn with
  | nil => rfl
  | append_singleton bs b ih =>
    have hbs : TimeOrdered (bs.map stamps) := by
      rw [List.map_append] at h
      exact ⟨fun c hc => h.ne_nil c (List.mem_append_left _ hc),
        fun c hc => h.same c (List.mem_append_left _ hc),
        (List.pairwise_append.mp h.apart).1,
        fun c hc => h.within c (List.mem_append_left _ hc),
        (List.pairwise_append.mp h.between).1⟩
    have hlast : b ∈ bs ++ [b] := by simp
    -- the id of the last block does not occur before
    have hnew : blockId b ∉ bs.flatten.map Event.correlationId := by
      intro hmem
      obtain ⟨e, he, heq⟩ := List.mem_map.mp hmem
      obtain ⟨b', hb', he⟩ := List.mem_flatten.mp he
      rw [h.correlationId_eq (List.mem_append_left _ hb') he] at heq
      exact (List.pairwise_append.mp h.pairwise_blockId).2.2 b' hb' b (by simp) heq
    rw [List.flatten_append, List.map_append, List.map_append, List.flatten_singleton,
      List.firstSeen_append_const hnew (by simpa using h.block_ne_nil hlast), ih hbs]
    · rfl
    · intro c hc
      obtain ⟨e, he, rfl⟩ := List.mem_map.mp hc
      exact h.correlationId_eq hlast he

/-- Collecting the events of one block's correlation id gives the block back. -/
theorem TimeOrdered.filter_flatten {b : List Event} (hb : b ∈ blocks) :
    (blocks.flatten.filter fun e => e.correlationId = blockId b) = b := by
  have hflat : blocks.flatten = blocks.flatMap id := by simp
  rw [hflat]
  exact List.filter_flatMap_label blockId (fun b hb e he => h.correlationId_eq hb he)
    h.pairwise_blockId hb

end Blocks

/-- The blocks of a finished list are its groups. -/
theorem groups_flatten {blocks : List (List Event)} (h : TimeOrdered (blocks.map stamps))
    (hseq : blocks.flatten.Pairwise fun a b => a.sequence < b.sequence) :
    groups blocks.flatten = blocks := by
  obtain ⟨hwithin, hbetween⟩ := List.pairwise_flatten.mp hseq
  have hgroup : ∀ b ∈ blocks, groupOf blocks.flatten (blockId b) = b := by
    intro b hb
    rw [groupOf, h.filter_flatten hb]
    have htime := h.within _ (List.mem_map_of_mem hb)
    rw [stamps, List.pairwise_map] at htime
    -- the events of a block are in time order and numbered in that order
    exact List.sortBy_eq_self
      ((htime.and (hwithin b hb)).imp fun {e e'} h => Event.clock_le h.1 h.2.le)
  have hmap : blocks.map (groupOf blocks.flatten ∘ blockId) = blocks :=
    (List.map_congr_left hgroup).trans (List.map_id' blocks)
  rw [groups_eq, h.firstSeen_flatten, List.map_map, hmap]
  have htime := h.between
  rw [List.pairwise_map] at htime
  refine List.sortBy_eq_self ((htime.and hbetween).imp_of_mem fun {b b'} hb hb' hbb => ?_)
  obtain ⟨e, rest, rfl⟩ := List.exists_cons_of_ne_nil (h.block_ne_nil hb)
  obtain ⟨e', rest', rfl⟩ := List.exists_cons_of_ne_nil (h.block_ne_nil hb')
  have hle : e.timestampNs ≤ e'.timestampNs := hbb.1 (_, _) rfl (_, _) rfl
  have hlt : e.sequence < e'.sequence := hbb.2 e (by simp) e' (by simp)
  exact Event.clock_le hle hlt.le

/-- Correlation leaves a finished list alone. -/
theorem correlate_eq_self {events : List Event} (h : Finished events) :
    correlate events = events := by
  obtain ⟨blocks, rfl, htime, hlink⟩ := h.blocks
  have hflat : (groups blocks.flatten).flatMap link = blocks.flatten := by
    rw [groups_flatten htime h.pairwise_sequence, List.flatMap_def, List.map_congr_left hlink,
      List.map_id']
  rw [correlate, hflat, h.numbered]

/-- Correlation is idempotent. -/
theorem correlate_correlate (events : List Event) :
    correlate (correlate events) = correlate events :=
  correlate_eq_self (finished_correlate events)

/-! ### The order of the groups -/

/-- The groups of a correlated stream, in order: sorted by the clock of their earliest event, and
by first appearance where those are equal. -/
theorem firstSeen_correlate (events : List Event) :
    ((correlate events).map Event.correlationId).firstSeen =
      ((events.map Event.correlationId).firstSeen).sortBy
        fun c => groupClock (groupOf events c) := by
  -- neither linking nor numbering changes a correlation id
  have hids : (correlate events).map Event.correlationId =
      (groups events).flatten.map Event.correlationId :=
    map_correlate (fun _ _ => rfl) (fun _ _ => rfl) events
  have hblock : ∀ c ∈ (events.map Event.correlationId).firstSeen,
      blockId (groupOf events c) = c := by
    intro c hc
    have hne := groupOf_ne_nil (List.mem_firstSeen.mp hc)
    obtain ⟨e, rest, hgroup⟩ := List.exists_cons_of_ne_nil hne
    have he : e ∈ groupOf events c := by simp [hgroup]
    rw [hgroup]
    exact (mem_groupOf.mp he).2
  have hperm := List.sortBy_perm (fun c => groupClock (groupOf events c))
    (events.map Event.correlationId).firstSeen
  rw [hids, (timeOrdered_groups events).firstSeen_flatten, groups_eq, List.sortBy_map,
    List.map_map]
  refine (List.map_congr_left fun c hc => ?_).trans (List.map_id' _)
  exact hblock c (hperm.mem_iff.mp hc)

end InfraReplay
