import InfraReplay.Comparison.Relation
import InfraReplay.Recording.Workflow

/-!
# Comparing two runs of one workflow

When a run goes through the steps of the recorded workflow one by one, linking by signature and
walking over the links come down to reading the two streams side by side: the event at each place is
compared with the event at the same place (`compareAligned`). `compareRun_of_aligned` says so of
`compare_run` on the links of `link_streams`.
-/

namespace InfraReplay

open Python

/-! ### The positional comparison -/

/-- The row of an original and of what stands at its place in the replay. -/
def placeResult (registry : List ComparatorPlugin) (replayId : String) (src : Event)
    (event : Option Event) : Option ComparisonResult :=
  (comparatorFor registry src.eventType.value).map fun comparator =>
    match event with
    | none => missingResult replayId src
    | some event => comparator.compare src event

theorem resultFor_eq_placeResult (registry : List ComparatorPlugin) (replayed : List Event)
    (links : Dict String String) (src : Event) :
    resultFor registry replayed links src =
      placeResult registry (replayIdOf replayed) src (partner (replayById replayed) links src) :=
  rfl

/-- Two streams compared place by place, and what the replay has beyond the original. -/
def compareAligned (registry : List ComparatorPlugin) (replayId : String)
    (original replayed : List Event) : List ComparisonResult :=
  (original.zipIdx.filterMap fun p => placeResult registry replayId p.1 replayed[p.2]?) ++
    ((replayed.drop original.length).filter Comparable).map (newResult replayId)

/-- Two workflows whose steps have the same types, as far as both go. -/
structure Aligned (original replayed : List Event) : Prop where
  recorded : Workflow original
  rerun : Workflow replayed
  sameTypes : ∀ (i : ℕ) (a b : Event), original[i]? = some a → replayed[i]? = some b →
    a.eventType = b.eventType

/-! ### Signatures -/

/-- The types of the events before a place. -/
def typesBefore (events : List Event) (i : ℕ) : List EventType :=
  (events.take i).map Event.eventType

/-- An event adds to the count of its type. -/
theorem count_typesBefore_lt {events : List Event} {i j : ℕ} {e : Event} (hi : events[i]? = some e)
    (hij : i < j) :
    (typesBefore events i).count e.eventType < (typesBefore events j).count e.eventType := by
  have hnext : typesBefore events (i + 1) = typesBefore events i ++ [e.eventType] := by
    unfold typesBefore
    rw [List.take_add_one, hi, List.map_append]
    rfl
  have hsub : (typesBefore events (i + 1)).Sublist (typesBefore events j) :=
    (List.take_sublist_take_left hij).map Event.eventType
  calc (typesBefore events i).count e.eventType
      < (typesBefore events (i + 1)).count e.eventType := by
        rw [hnext, List.count_append, List.count_singleton_self]
        omega
    _ ≤ (typesBefore events j).count e.eventType := hsub.count_le _

/-- Events of one correlation id are all in group `0`. -/
theorem groupNumber_of_sameGroup {before : List Event} {c : String}
    (h : ∀ e ∈ before, e.correlationId = c) : groupNumber before c = 0 := by
  unfold groupNumber
  by_cases hnil : before = []
  · rw [hnil]
    rfl
  · have hseen : (before.map Event.correlationId).firstSeen = [c] := by
      refine List.firstSeen_append_const (l := []) List.not_mem_nil (by simpa using hnil) ?_
      intro b hb
      obtain ⟨e, he, rfl⟩ := List.mem_map.mp hb
      exact h e he
    rw [hseen, List.idxOf_cons_self]

namespace Workflow

variable {events : List Event}

/-- The signatures of a workflow count the events of each type. -/
theorem mem_signatures (h : Workflow events) {sig : Signature} {eventId : String} :
    (sig, eventId) ∈ signatures events ↔
      ∃ (i : ℕ) (e : Event), events[i]? = some e ∧
        sig = (0, e.eventType.value, (typesBefore events i).count e.eventType) ∧
          eventId = e.eventId := by
  have hsorted : events.sortBy Event.sequence = events :=
    List.sortBy_eq_self (h.finished.pairwise_sequence.imp le_of_lt)
  -- in one group, the events of one slot are those of one type
  have hsig : ∀ pre event post, events = pre ++ event :: post →
      signatureIn ([] ++ pre) event =
        (0, event.eventType.value, (pre.map Event.eventType).count event.eventType) := by
    intro pre event post hsplit
    have hsame : ∀ e ∈ pre, e.correlationId = event.correlationId := fun e he =>
      h.sameGroup e (by simp [hsplit, he]) event (by simp [hsplit])
    rw [signatureIn, List.nil_append, groupNumber_of_sameGroup hsame, List.count, List.countP_map]
    congr 2
    refine List.countP_congr fun e he => ?_
    simp only [SameSlot, hsame e he, true_and, decide_eq_true_eq, Function.comp_apply, beq_iff_eq]
    exact eq_comm
  rw [signatures_eq, hsorted, mem_annotate]
  constructor
  · rintro ⟨pre, event, post, hsplit, rfl, rfl⟩
    refine ⟨pre.length, event, by simp [hsplit], ?_, rfl⟩
    rw [hsig pre event post hsplit, typesBefore, hsplit, List.take_left]
  · rintro ⟨i, e, hi, rfl, rfl⟩
    obtain ⟨hlt, rfl⟩ := List.getElem?_eq_some_iff.mp hi
    have hsplit : events = events.take i ++ events[i] :: events.drop (i + 1) := by
      rw [List.getElem_cons_drop, List.take_append_drop]
    exact ⟨_, _, _, hsplit, (hsig _ _ _ hsplit).symm, rfl⟩

end Workflow

/-! ### Links and results -/

namespace Aligned

variable {original replayed : List Event}

/-- Before a place that both streams have, the types are the same. -/
theorem typesBefore_eq (h : Aligned original replayed) {i : ℕ} (ho : i ≤ original.length)
    (hr : i ≤ replayed.length) : typesBefore original i = typesBefore replayed i := by
  apply List.ext_getElem
  · simp [typesBefore, ho, hr]
  · intro j hj hj'
    have hlt : j < i := by simpa [typesBefore, ho] using hj
    simp only [typesBefore, List.getElem_map, List.getElem_take]
    exact h.sameTypes j _ _ (List.getElem?_eq_getElem (by omega))
      (List.getElem?_eq_getElem (by omega))

/-- Equal signatures stand at the same place. -/
theorem place_eq (h : Aligned original replayed) {i j : ℕ} {a b : Event}
    (ha : original[i]? = some a) (hb : replayed[j]? = some b) (htype : a.eventType = b.eventType)
    (hcount : (typesBefore original i).count a.eventType =
      (typesBefore replayed j).count b.eventType) : i = j := by
  obtain ⟨hi, -⟩ := List.getElem?_eq_some_iff.mp ha
  obtain ⟨hj, -⟩ := List.getElem?_eq_some_iff.mp hb
  -- the count of a type grows with the place, and is the same for both streams
  rcases Nat.lt_trichotomy i j with hij | hij | hij
  · -- the replay has an event of this type at `i` already
    have hthere := List.getElem?_eq_getElem (hij.trans hj)
    have hmore := count_typesBefore_lt hthere hij
    rw [← h.sameTypes i a _ ha hthere, ← h.typesBefore_eq hi.le (hij.trans hj).le, htype] at hmore
    rw [htype] at hcount
    exact absurd hcount hmore.ne
  · exact hij
  · -- and here the original has one at `j`
    have hthere := List.getElem?_eq_getElem (hij.trans hi)
    have hmore := count_typesBefore_lt hthere hij
    rw [h.sameTypes j _ b hthere hb, h.typesBefore_eq (hij.trans hi).le hj.le, ← htype] at hmore
    rw [← htype] at hcount
    exact absurd hcount.symm hmore.ne

/-- Each original is linked to what stands at its place. -/
theorem get?_linkStreams (h : Aligned original replayed)
    (hnd : (original.map Event.eventId).Nodup) {i : ℕ} {a : Event} (ha : original[i]? = some a) :
    (linkStreams original replayed).get? a.eventId = replayed[i]?.map Event.eventId := by
  apply Option.ext
  intro replayEid
  rw [InfraReplay.get?_linkStreams replayed hnd, Option.map_eq_some_iff]
  constructor
  · rintro ⟨sig, ho, hr⟩
    obtain ⟨j, a', ha', rfl, hid⟩ := h.recorded.mem_signatures.mp ho
    obtain ⟨k, b, hb, hsig, rfl⟩ := h.rerun.mem_signatures.mp hr
    obtain ⟨-, htype, hcount⟩ := signature_inj hsig
    -- the ids of the originals tell the places apart
    have hij : i = j := by
      obtain ⟨hi, -⟩ := List.getElem?_eq_some_iff.mp ha
      refine (List.getElem?_inj (by simpa using hi) hnd).mp ?_
      rw [List.getElem?_map, List.getElem?_map, ha, ha', Option.map_some, Option.map_some, hid]
    subst hij
    obtain rfl := h.place_eq ha' hb htype hcount
    exact ⟨b, hb, rfl⟩
  · rintro ⟨b, hb, rfl⟩
    refine ⟨_, h.recorded.mem_signatures.mpr ⟨i, a, ha, rfl, rfl⟩,
      h.rerun.mem_signatures.mpr ⟨i, b, hb, ?_, rfl⟩⟩
    obtain ⟨hi, -⟩ := List.getElem?_eq_some_iff.mp ha
    obtain ⟨hi', -⟩ := List.getElem?_eq_some_iff.mp hb
    rw [h.sameTypes i a b ha hb, h.typesBefore_eq hi.le hi'.le]

end Aligned

/-- A filter that drops a prefix. -/
private theorem filter_eq_filter_drop {α : Type} {p q : α → Bool} {l : List α} (n : ℕ)
    (htake : ∀ a ∈ l.take n, ¬p a) (hdrop : ∀ a ∈ l.drop n, p a = q a) :
    l.filter p = (l.drop n).filter q := by
  conv_lhs => rw [← List.take_append_drop n l, List.filter_append]
  rw [List.filter_eq_nil_iff.mpr htake, List.nil_append]
  exact List.filter_congr hdrop

/-- **Aligned runs are compared place by place.** -/
theorem compareRun_of_aligned {cfg : Config} {original : Recording} {replayed : List Event}
    (h : Aligned original.events replayed) (ho : (original.events.map Event.eventId).Nodup)
    (hr : (replayed.map Event.eventId).Nodup) (hne : ∀ e ∈ replayed, e.eventId ≠ "") :
    compareRun (comparators cfg) original replayed (linkStreams original.events replayed) =
      compareAligned (comparators cfg) (replayIdOf replayed) original.events replayed := by
  have hpartner : ∀ (i : ℕ) (src : Event), original.events[i]? = some src →
      partner (replayById replayed) (linkStreams original.events replayed) src = replayed[i]? := by
    intro i src hi
    apply Option.ext
    intro event
    rw [partner_eq_some_iff hr, h.get?_linkStreams ho hi, Option.map_eq_some_iff]
    constructor
    · rintro ⟨hevent, ⟨event', hi', hid⟩, -⟩
      rw [hi', List.inj_on_of_nodup_map hr (List.mem_of_getElem? hi') hevent hid]
    · intro hi'
      have hevent := List.mem_of_getElem? hi'
      exact ⟨hevent, ⟨event, hi', rfl⟩, hne event hevent⟩
  rw [compareRun_eq, compareAligned]
  congr 1
  case e_a =>
    have hplaces : ∀ f : Event → Option ComparisonResult,
        original.events.filterMap f = original.events.zipIdx.filterMap fun p => f p.1 := by
      intro f
      conv_lhs => rw [← List.zipIdx_map_fst 0 original.events, List.filterMap_map]
      rfl
    rw [hplaces]
    refine List.filterMap_congr fun p hp => ?_
    rw [resultFor_eq_placeResult, hpartner p.2 p.1 (List.mk_mem_zipIdx_iff_getElem?.mp hp)]
  case e_a =>
    -- what stands beside an original is consumed by it, what comes after them is nobody's partner
    congr 1
    refine filter_eq_filter_drop original.events.length (fun event hevent => ?_)
      fun event hevent => ?_
    · obtain ⟨i, hi⟩ := List.getElem?_of_mem hevent
      rw [List.getElem?_take] at hi
      split_ifs at hi with hlt
      have hmem := List.mem_of_getElem? hi
      have hsrc := List.getElem?_eq_getElem hlt
      rw [decide_eq_true_eq, mem_consumes_iff hr hmem, comparatorFor_isSome, decide_eq_true_eq]
      rintro ⟨hfree, hcomparable⟩
      refine hfree ⟨_, List.mem_of_getElem? hsrc, ?_, ?_, hne event hmem⟩
      · rw [Comparable, h.sameTypes i _ event hsrc hi]
        exact hcomparable
      · rw [h.get?_linkStreams ho hsrc, hi, Option.map_some]
    · obtain ⟨i, hi⟩ := List.getElem?_of_mem hevent
      rw [List.getElem?_drop] at hi
      have hmem := List.mem_of_getElem? hi
      have hfree : event.eventId ∉ original.events.filterMap (consumes (comparators cfg) replayed
          (linkStreams original.events replayed)) := by
        rw [mem_consumes_iff hr hmem]
        rintro ⟨src, hsrc, -, hlink, -⟩
        obtain ⟨j, hj⟩ := List.getElem?_of_mem hsrc
        obtain ⟨hlt, -⟩ := List.getElem?_eq_some_iff.mp hj
        rw [h.get?_linkStreams ho hj, Option.map_eq_some_iff] at hlink
        obtain ⟨event', hj', hid⟩ := hlink
        rw [List.inj_on_of_nodup_map hr (List.mem_of_getElem? hj') hmem hid] at hj'
        have hplace := (List.getElem?_inj (List.getElem?_eq_some_iff.mp hj').1
          (List.Nodup.of_map _ hr)).mp (hj'.trans hi.symm)
        omega
      simp only [hfree, not_false_eq_true, true_and, comparatorFor_isSome, decide_eq_true_eq]

end InfraReplay
