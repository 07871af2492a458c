import Mathlib.Data.Set.Card
import Mathlib.Logic.Relation

/-!
# Following a partial function

`next : α → Option α` leads from an element to at most one other. A walk that starts behind `a`
follows it and marks what it passes, until it is at an end or at something marked. `Marked` is the
invariant of such a walk: what is reached from `a` is marked or still ahead.

* `Marked.ncard`: at an end the marks are the elements that are reached from `a`.
* `Marked.cycle`: a walk that comes back to something marked has found a cycle.
-/

namespace Ancestry

variable {α : Type} (next : α → Option α)

/-- One element leads to the other. -/
def Link (a b : α) : Prop := next a = some b

/-- The walk from `a` is at `here` and has marked the elements it has passed. -/
structure Marked (a : α) (here : Option α) (marked : List α) : Prop where
  nodup : marked.Nodup
  covers : ∀ b, Relation.TransGen (Link next) a b ↔
    b ∈ marked ∨ ∃ c, here = some c ∧ Relation.ReflTransGen (Link next) c b
  leads : ∀ b ∈ marked, ∀ c, here = some c → Relation.TransGen (Link next) b c

variable {next} {a c : α} {marked : List α}

/-- What is reached from an element in some steps is the next one or reached from it. -/
theorem transGen_link_iff {b : α} : Relation.TransGen (Link next) a b ↔
    ∃ c, next a = some c ∧ Relation.ReflTransGen (Link next) c b :=
  Relation.TransGen.head'_iff

theorem marked_nil (next : α → Option α) (a : α) : Marked next a (next a) [] where
  nodup := List.nodup_nil
  covers b := by
    rw [transGen_link_iff]
    simp
  leads b hb := nomatch hb

/-- The walk marks where it is and goes on. -/
theorem Marked.step (h : Marked next a (some c) marked) (hc : c ∉ marked) :
    Marked next a (next c) (c :: marked) where
  nodup := List.nodup_cons.mpr ⟨hc, h.nodup⟩
  covers b := by
    rw [h.covers, List.mem_cons]
    -- what is reached from `c` is `c` itself and what is reached from its parent
    have hsplit : (∃ d, some c = some d ∧ Relation.ReflTransGen (Link next) d b) ↔
        b = c ∨ ∃ d, next c = some d ∧ Relation.ReflTransGen (Link next) d b := by
      rw [← transGen_link_iff]
      constructor
      · rintro ⟨d, hd, hreach⟩
        obtain rfl := Option.some.inj hd
        exact (Relation.reflTransGen_iff_eq_or_transGen.mp hreach)
      · intro hb
        exact ⟨c, rfl, Relation.reflTransGen_iff_eq_or_transGen.mpr hb⟩
    rw [hsplit]
    tauto
  leads b hb d hd := by
    rcases List.mem_cons.mp hb with rfl | hb
    · exact .single hd
    · exact (h.leads b hb c rfl).tail hd

/-- At an end the marks are what is reached. -/
theorem Marked.ncard (h : Marked next a none marked) :
    {b | Relation.TransGen (Link next) a b}.ncard = marked.length := by
  classical
  have hset : {b | Relation.TransGen (Link next) a b} = (marked.toFinset : Set α) := by
    ext b
    simp [h.covers]
  rw [hset, Set.ncard_coe_finset, List.toFinset_card_of_nodup h.nodup]

/-- A walk that is back at something marked has found a cycle. -/
theorem Marked.cycle (h : Marked next a (some c) marked) (hc : c ∈ marked) :
    Relation.TransGen (Link next) c c :=
  h.leads c hc c rfl

end Ancestry
