import InfraReplay.Common.Ancestry
import InfraReplay.Common.While
import InfraReplay.Schema

/-!
# The nesting depth of an event

The timeline indents an event by the number of its ancestors, at most three. `_depth` follows the
parent links through the listed events and remembers the ids it has seen, so it ends on every
graph of links: each turn sees an id that was not seen before (`exists_run_depthTurn`). Without
cycles it sees each ancestor once (`depth_eq`).
-/

namespace InfraReplay

open Python

/-- `_parent_map`. -/
def parentMap (events : List Event) : Dict String Event :=
  Dict.ofPairs (events.map fun e => (e.eventId, e))

/-- The variables of the loop in `_depth`. -/
structure DepthState where
  depth : ℕ
  parent : Option String
  seen : List String

/-- The variables before the loop. -/
def depthStart (e : Event) : DepthState where
  depth := 0
  parent := e.parentEventId
  seen := []

/-- The listed event of an id that is not empty. -/
def listed (byId : Dict String Event) (id : String) : Option Event :=
  if id = "" then none else byId.get? id

/-- One turn of the loop in `_depth`. -/
def depthTurn (byId : Dict String Event) (s : DepthState) : DepthState ⊕ ℕ :=
  match s.parent with
  | none => .inr (min s.depth 3)
  | some parent =>
    match listed byId parent with
    | none => .inr (min s.depth 3)
    | some e =>
      if parent ∈ s.seen then .inr (min s.depth 3)
      else .inl { depth := s.depth + 1, parent := e.parentEventId, seen := parent :: s.seen }

section Loop

variable {byId : Dict String Event} {s s' : DepthState}

/-- A turn that goes on is at a listed event that was not seen. -/
theorem depthTurn_eq_inl_iff : depthTurn byId s = .inl s' ↔ ∃ parent e,
    s.parent = some parent ∧ listed byId parent = some e ∧ parent ∉ s.seen ∧
      s' = { depth := s.depth + 1, parent := e.parentEventId, seen := parent :: s.seen } := by
  unfold depthTurn
  cases s.parent with
  | none => simp
  | some parent =>
    cases hlisted : listed byId parent with
    | none => simp [hlisted]
    | some e =>
      by_cases hseen : parent ∈ s.seen
      · -- the walk is back at an event it has counted
        simp [hlisted, hseen]
      · simp [hlisted, hseen, eq_comm]

/-- The loop is left at no parent, at an id that is not listed, or at one that was seen. -/
theorem depthTurn_eq_inr {n : ℕ} (h : depthTurn byId s = .inr n) : n = min s.depth 3 ∧
    ∀ e, s.parent.bind (listed byId) = some e → ∃ parent, s.parent = some parent ∧
      parent ∈ s.seen := by
  unfold depthTurn at h
  cases hparent : s.parent with
  | none =>
    rw [hparent] at h
    exact ⟨(Sum.inr.inj h).symm, fun e he => absurd he (Option.some_ne_none e).symm⟩
  | some parent =>
    rw [hparent] at h
    cases hlisted : listed byId parent with
    | none =>
      simp only [hlisted, Sum.inr.injEq] at h
      exact ⟨h.symm, fun e he => nomatch hlisted.symm.trans he⟩
    | some e =>
      simp only [hlisted] at h
      split_ifs at h with hseen
      · exact ⟨(Sum.inr.inj h).symm, fun _ _ => ⟨parent, rfl, hseen⟩⟩

theorem mem_keys_of_listed {id : String} {e : Event} (h : listed byId id = some e) :
    id ∈ byId.keys := by
  unfold listed at h
  split_ifs at h
  exact Dict.mem_keys_of_get?_eq_some h

/-- The ids that are left to see. -/
def unseen (byId : Dict String Event) (s : DepthState) : Finset String :=
  byId.keys.toFinset \ s.seen.toFinset

/-- A turn sees a new id. -/
theorem unseen_depthTurn (h : depthTurn byId s = .inl s') :
    (unseen byId s').card < (unseen byId s).card := by
  obtain ⟨parent, e, -, hlisted, hnew, rfl⟩ := depthTurn_eq_inl_iff.mp h
  have hkey := mem_keys_of_listed hlisted
  rw [unseen, List.toFinset_cons, Finset.sdiff_insert]
  refine Finset.card_erase_lt_of_mem (Finset.mem_sdiff.mpr ⟨?_, ?_⟩)
  · exact List.mem_toFinset.mpr hkey
  · exact fun hseen => hnew (List.mem_toFinset.mp hseen)

theorem exists_run_depthTurn (byId : Dict String Event) (e : Event) :
    ∃ n, While.run (depthTurn byId) ((unseen byId (depthStart e)).card + 1) (depthStart e) =
      some n :=
  While.exists_run (I := fun _ => True) (fun _ _ _ h => ⟨trivial, unseen_depthTurn h⟩) trivial
    (Nat.lt_succ_self _)

/-- `_depth`. -/
def depth (e : Event) (byId : Dict String Event) : ℕ :=
  While.result (depthTurn byId) _ (depthStart e) (exists_run_depthTurn byId e)

/-- The loop ends with what `_depth` returns. -/
theorem ends_depth (byId : Dict String Event) (e : Event) :
    While.Ends (depthTurn byId) (depthStart e) (depth e byId) :=
  While.ends_result (exists_run_depthTurn byId e)

end Loop

/-! ### Ancestors -/

section Ancestors

variable (events : List Event)

/-- A listed event is the parent of another event. -/
def IsParent (child parent : Event) : Prop :=
  parent ∈ events ∧ child.parentEventId = some parent.eventId

/-- The ancestors of an event that are reached inside the list. -/
def ancestors (e : Event) : Set Event := {a | Relation.TransGen (IsParent events) e a}

/-- No listed event is its own ancestor. -/
def Acyclic : Prop := ∀ e ∈ events, e ∉ ancestors events e

/-- The parent of an event, as the loop finds it. -/
def listedParent (e : Event) : Option Event := e.parentEventId.bind (listed (parentMap events))

variable {events}

theorem listed_eq_some_iff (hids : (events.map Event.eventId).Nodup)
    (hne : ∀ e ∈ events, e.eventId ≠ "") {id : String} {e : Event} :
    listed (parentMap events) id = some e ↔ e ∈ events ∧ e.eventId = id := by
  unfold listed parentMap
  split_ifs with hempty
  · constructor
    · intro hnone
      cases hnone
    · intro h
      exact absurd (h.2.trans hempty) (hne e h.1)
  · exact Dict.get?_ofPairs_index hids

/-- The loop follows the parents. -/
theorem link_listedParent (hids : (events.map Event.eventId).Nodup)
    (hne : ∀ e ∈ events, e.eventId ≠ "") :
    Ancestry.Link (listedParent events) = IsParent events := by
  ext child parent
  rw [Ancestry.Link, listedParent, Option.bind_eq_some_iff, IsParent]
  constructor
  · rintro ⟨id, hid, hlisted⟩
    obtain ⟨hmem, rfl⟩ := (listed_eq_some_iff hids hne).mp hlisted
    exact ⟨hmem, hid⟩
  · rintro ⟨hmem, hid⟩
    exact ⟨_, hid, (listed_eq_some_iff hids hne).mpr ⟨hmem, rfl⟩⟩

/-- The loop has marked the events whose ids it has seen, and counted them. -/
def Follows (events : List Event) (e : Event) (s : DepthState) : Prop :=
  ∃ marked, Ancestry.Marked (listedParent events) e (s.parent.bind (listed (parentMap events)))
    marked ∧ (∀ a ∈ marked, a ∈ events) ∧ s.seen = marked.map Event.eventId ∧
      s.depth = marked.length

theorem follows_start (e : Event) : Follows events e (depthStart e) :=
  ⟨[], Ancestry.marked_nil _ e, by simp, rfl, rfl⟩

theorem Follows.turn (hids : (events.map Event.eventId).Nodup)
    (hne : ∀ e ∈ events, e.eventId ≠ "") {e : Event} {s s' : DepthState}
    (hs : Follows events e s) (h : depthTurn (parentMap events) s = .inl s') :
    Follows events e s' := by
  obtain ⟨marked, hmarked, hin, hseen, hdepth⟩ := hs
  obtain ⟨parent, a, hparent, hlisted, hnew, rfl⟩ := depthTurn_eq_inl_iff.mp h
  obtain ⟨ha, rfl⟩ := (listed_eq_some_iff hids hne).mp hlisted
  rw [hparent, Option.bind_some, hlisted] at hmarked
  refine ⟨a :: marked, hmarked.step fun hmem => hnew ?_, List.forall_mem_cons.mpr ⟨ha, hin⟩, ?_, ?_⟩
  · rw [hseen]
    exact List.mem_map_of_mem hmem
  · rw [hseen, List.map_cons]
  · rw [hdepth, List.length_cons]

/-- **The depth walk.** For every list of events with distinct ids that are not empty, whatever
their parent links, the loop of `_depth` ends for every event, and without cycles among the listed
events it returns the number of ancestors inside the list, or 3 if that is smaller. -/
theorem depth_eq (hids : (events.map Event.eventId).Nodup) (hne : ∀ e ∈ events, e.eventId ≠ "")
    (e : Event) :
    While.Ends (depthTurn (parentMap events)) (depthStart e) (depth e (parentMap events)) ∧
      (Acyclic events → depth e (parentMap events) = min 3 (ancestors events e).ncard) := by
  refine ⟨ends_depth _ e, fun hacyclic => ?_⟩
  obtain ⟨s, ⟨marked, hmarked, hin, hseen, hdepth⟩, hstop⟩ :=
    (ends_depth (parentMap events) e).invariant (fun _ _ hs h => hs.turn hids hne h)
      (follows_start e)
  obtain ⟨hresult, hleft⟩ := depthTurn_eq_inr hstop
  have hlink := link_listedParent hids hne
  have hend : s.parent.bind (listed (parentMap events)) = none := by
    by_contra hnone
    obtain ⟨a, ha⟩ := Option.ne_none_iff_exists'.mp hnone
    -- an event that was seen is marked, and so the walk has closed a cycle
    obtain ⟨parent, hparent, hmem⟩ := hleft a ha
    rw [hparent, Option.bind_some] at ha
    obtain ⟨hlisted, rfl⟩ := (listed_eq_some_iff hids hne).mp ha
    rw [hseen] at hmem
    obtain ⟨b, hb, hid⟩ := List.mem_map.mp hmem
    obtain rfl := List.inj_on_of_nodup_map hids (hin b hb) hlisted hid
    rw [hparent, Option.bind_some, ha] at hmarked
    have hcycle := hmarked.cycle hb
    rw [hlink] at hcycle
    exact hacyclic b hlisted hcycle
  rw [hend] at hmarked
  have hcard := hmarked.ncard
  rw [hlink] at hcard
  rw [hresult, hdepth, ancestors, hcard, min_comm]

/-- There is no cycle when every listed parent comes before its child. -/
theorem acyclic_of_earlier (h : ∀ child ∈ events, ∀ parent ∈ events,
    child.parentEventId = some parent.eventId → parent.sequence < child.sequence) :
    Acyclic events := by
  intro e he hcycle
  have hearlier : ∀ a, Relation.TransGen (IsParent events) e a →
      a ∈ events ∧ a.sequence < e.sequence := by
    intro a ha
    induction ha with
    | single hparent => exact ⟨hparent.1, h e he _ hparent.1 hparent.2⟩
    | tail _ hparent ih =>
      exact ⟨hparent.1, (h _ ih.1 _ hparent.1 hparent.2).trans ih.2⟩
  exact lt_irrefl _ (hearlier e hcycle).2

end Ancestors

/-- The result of a query. -/
def nestedResult : Event :=
  { Event.brief .pgResult "rst" "a" 2 with parentEventId := some "qry" }

/-- A request, a query under it and the result of the query. -/
def nested : List Event :=
  [.brief .httpRequest "req" "a" 0,
    { Event.brief .pgQuery "qry" "a" 1 with parentEventId := some "req" },
    nestedResult]

theorem depth_eq_nested :
    While.Ends (depthTurn (parentMap nested)) (depthStart nestedResult)
        (depth nestedResult (parentMap nested)) ∧
      depth nestedResult (parentMap nested) = min 3 (ancestors nested nestedResult).ncard := by
  have hacyclic : Acyclic nested := acyclic_of_earlier (by decide)
  have hids : (nested.map Event.eventId).Nodup := by decide
  have hne : ∀ e ∈ nested, e.eventId ≠ "" := by decide
  obtain ⟨hends, hdepth⟩ := depth_eq hids hne nestedResult
  exact ⟨hends, hdepth hacyclic⟩

/-- Two events that are each other's parent are both seen once. -/
example :
    let a := { Event.brief .pgQuery "a" "c" 0 with parentEventId := some "b" }
    let b := { Event.brief .pgQuery "b" "c" 1 with parentEventId := some "a" }
    depth a (parentMap [a, b]) = 2 := by decide

end InfraReplay
