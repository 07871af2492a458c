import Mathlib.Data.List.Sort
import Mathlib.Data.Prod.Lex

/-!
# Stable sorting by a key

`sorted(xs, key=f)` for a key in a linear order: the insertion sort of Mathlib at the relation
`key a ≤ key b`, which keeps the order of elements whose keys are equal.

* `List.sortBy_map` and `List.sortBy_congr`: the sort only looks at how the keys compare.
* `List.sortBy_eq_of_perm`: with distinct keys the result does not depend on the input order.
* `List.sortBy_eq_iff`: with ties, the result is the one arrangement that is sorted by key and
  breaks ties by position in the input.
-/

namespace List

variable {α β κ : Type} [LinearOrder κ] {l l' : List α}

/-- `l` sorted by `key`, elements with equal keys staying in the order they had. -/
def sortBy (key : α → κ) (l : List α) : List α :=
  l.insertionSort fun a b => key a ≤ key b

theorem sortBy_perm (key : α → κ) (l : List α) : (l.sortBy key).Perm l :=
  perm_insertionSort _ l

@[simp]
theorem mem_sortBy {key : α → κ} {a : α} : a ∈ l.sortBy key ↔ a ∈ l :=
  mem_insertionSort _

@[simp]
theorem sortBy_nil (key : α → κ) : ([] : List α).sortBy key = [] := rfl

/-- The result is sorted. -/
theorem sortBy_pairwise (key : α → κ) (l : List α) :
    (l.sortBy key).Pairwise fun a b => key a ≤ key b := by
  have : Std.Total fun a b : α => key a ≤ key b := ⟨fun a b => le_total (key a) (key b)⟩
  have : IsTrans α fun a b => key a ≤ key b := ⟨fun _ _ _ => le_trans⟩
  exact pairwise_insertionSort _ l

/-- A sorted list is left as it is. -/
theorem sortBy_eq_self {key : α → κ} (h : l.Pairwise fun a b => key a ≤ key b) :
    l.sortBy key = l :=
  h.insertionSort_eq

/-- Sorting after a map is sorting by the composed key before it. -/
theorem sortBy_map (key : α → κ) (f : β → α) (l : List β) :
    (l.map f).sortBy key = (l.sortBy fun b => key (f b)).map f :=
  (map_insertionSort _ _ f l fun _ _ _ _ => Iff.rfl).symm

/-- Two keys that order the elements alike sort alike. -/
theorem sortBy_congr {κ' : Type} [LinearOrder κ'] {key : α → κ} {key' : α → κ'}
    (h : ∀ a ∈ l, ∀ b ∈ l, key a ≤ key b ↔ key' a ≤ key' b) :
    l.sortBy key = l.sortBy key' := by
  simpa [sortBy] using
    map_insertionSort (fun a b => key a ≤ key b) (fun a b => key' a ≤ key' b) id l h

/-- With distinct keys the result is a function of the elements alone. -/
theorem sortBy_eq_of_perm {key : α → κ} (hperm : l.Perm l')
    (hinj : ∀ a ∈ l, ∀ b ∈ l, key a = key b → a = b) :
    l.sortBy key = l'.sortBy key := by
  have hp : (l.sortBy key).Perm (l'.sortBy key) :=
    (sortBy_perm key l).trans (hperm.trans (sortBy_perm key l').symm)
  refine hp.eq_of_pairwise (fun a b ha _ hab hba => ?_) (sortBy_pairwise key l)
    (sortBy_pairwise key l')
  have ha' : a ∈ l := by simpa using ha
  have hb' : b ∈ l := by
    have : b ∈ l'.sortBy key := by assumption
    exact hperm.mem_iff.mpr (by simpa using this)
  exact hinj a ha' b hb' (le_antisymm hab hba)

/-- A list sorted by key is the one arrangement of its elements with strictly growing keys, when
there is one. -/
theorem Perm.eq_of_pairwise_key (key : α → κ) (hperm : l.Perm l')
    (hl : l.Pairwise fun a b => key a ≤ key b) (hl' : l'.Pairwise fun a b => key a < key b) :
    l = l' := by
  have hinj : ∀ a ∈ l', ∀ b ∈ l', key a = key b → a = b := by
    have hne : l'.Pairwise fun a b => key a ≠ key b := hl'.imp fun h => ne_of_lt h
    exact List.inj_on_of_nodup_map (pairwise_map.mpr hne)
  have hsorted : l.sortBy key = l'.sortBy key :=
    sortBy_eq_of_perm hperm fun a ha b hb =>
      hinj a (hperm.mem_iff.mp ha) b (hperm.mem_iff.mp hb)
  rwa [sortBy_eq_self hl, sortBy_eq_self (hl'.imp le_of_lt)] at hsorted

/-- Elements of `l'` that show each of its distinct keys once are a permutation of it. -/
theorem perm_of_map_perm {f : α → β} (hnd : (l'.map f).Nodup) (hmem : ∀ a ∈ l, a ∈ l')
    (hmap : (l.map f).Perm (l'.map f)) : l.Perm l' := by
  refine (perm_ext_iff_of_nodup (hmap.nodup_iff.mpr hnd).of_map hnd.of_map).mpr fun a =>
    ⟨hmem a, fun ha => ?_⟩
  obtain ⟨b, hb, hfb⟩ := mem_map.mp (hmap.mem_iff.mpr (mem_map_of_mem ha))
  exact inj_on_of_nodup_map hnd (hmem b hb) ha hfb ▸ hb

/-! ### Ties -/

variable [DecidableEq α]

/-- `a` stands before `b` when `l` is sorted by `key`: its key is smaller, or the keys are equal
and `a` came first. -/
def SortsBefore (key : α → κ) (l : List α) (a b : α) : Prop :=
  key a < key b ∨ key a = key b ∧ l.idxOf a < l.idxOf b

instance (key : α → κ) (l : List α) (a b : α) : Decidable (SortsBefore key l a b) := by
  unfold SortsBefore
  infer_instance

/-- In an ordered list the element found earlier is the smaller one. -/
theorem Pairwise.lt_of_idxOf_lt [LT α] {a b : α} (h : l.Pairwise (· < ·))
    (hidx : l.idxOf a < l.idxOf b) (hb : b ∈ l) : a < b := by
  have hlt : l.idxOf b < l.length := idxOf_lt_length_of_mem hb
  have hget := pairwise_iff_getElem.mp h _ _ (hidx.trans hlt) hlt hidx
  rwa [getElem_idxOf, getElem_idxOf] at hget

/-- In a list without repetition, a two-element sublist lists an earlier and a later element. -/
private theorem idxOf_lt_of_pair_sublist (hl : l.Nodup) {a b : α} (h : [a, b] <+ l) :
    l.idxOf a < l.idxOf b := by
  induction l with
  | nil => simp at h
  | cons c l ih =>
    rw [nodup_cons] at hl
    cases h with
    | cons _ h =>
      have ha : a ∈ l := h.subset (by simp)
      have hb : b ∈ l := h.subset (by simp)
      have hca : c ≠ a := fun hc => hl.1 (hc ▸ ha)
      have hcb : c ≠ b := fun hc => hl.1 (hc ▸ hb)
      simpa [idxOf_cons_ne _ hca, idxOf_cons_ne _ hcb] using ih hl.2 h
    | cons_cons _ h =>
      have hb : b ∈ l := singleton_sublist.mp h
      have hab : a ≠ b := fun hc => hl.1 (hc ▸ hb)
      simp [idxOf_cons_ne _ hab]

/-- In a list without repetition, an earlier and a later element form a sublist. -/
private theorem pair_sublist_of_idxOf_lt {a b : α} (h : l.idxOf a < l.idxOf b) (hb : b ∈ l) :
    [a, b] <+ l := by
  induction l with
  | nil => simp at hb
  | cons c l ih =>
    -- either `a` comes now and `b` later, or both come later
    by_cases hca : c = a
    · subst hca
      have hcb : c ≠ b := by
        rintro rfl
        exact lt_irrefl _ h
      have hbl : b ∈ l := by simpa [hcb.symm] using hb
      exact (singleton_sublist.mpr hbl).cons_cons c
    · have hcb : c ≠ b := by
        rintro rfl
        simp at h
      have hbl : b ∈ l := by simpa [Ne.symm hcb] using hb
      rw [idxOf_cons_ne _ hca, idxOf_cons_ne _ hcb] at h
      exact (ih (Nat.lt_of_succ_lt_succ h) hbl).cons c

/-- The sort breaks ties by position. -/
theorem sortBy_pairwise_sortsBefore (key : α → κ) (hl : l.Nodup) :
    (l.sortBy key).Pairwise (SortsBefore key l) := by
  have : Std.Total fun a b : α => key a ≤ key b := ⟨fun a b => le_total (key a) (key b)⟩
  have : IsTrans α fun a b => key a ≤ key b := ⟨fun _ _ _ => le_trans⟩
  have hnd : (l.sortBy key).Nodup := (sortBy_perm key l).nodup_iff.mpr hl
  rw [pairwise_iff_forall_sublist]
  intro a b hab
  have hle : key a ≤ key b := pairwise_iff_forall_sublist.mp (sortBy_pairwise key l) hab
  rcases hle.lt_or_eq with hlt | heq
  · exact Or.inl hlt
  · refine Or.inr ⟨heq, ?_⟩
    have ha : a ∈ l := by simpa using hab.subset (show a ∈ [a, b] by simp)
    have hb : b ∈ l := by simpa using hab.subset (show b ∈ [a, b] by simp)
    have hne : a ≠ b := by
      rintro rfl
      exact absurd (idxOf_lt_of_pair_sublist hnd hab) (lt_irrefl _)
    by_contra hcon
    -- otherwise `b` came first in `l`, and the sort would have kept it first
    have hidx : l.idxOf b < l.idxOf a :=
      lt_of_le_of_ne (not_lt.mp hcon) fun h => hne ((idxOf_inj hb).mp h).symm
    have hba : [b, a] <+ l.sortBy key :=
      pair_sublist_insertionSort heq.ge (pair_sublist_of_idxOf_lt hidx ha)
    exact lt_asymm (idxOf_lt_of_pair_sublist hnd hab) (idxOf_lt_of_pair_sublist hnd hba)

/-- The sort of a list without repetition is the one arrangement of it in which every element
`SortsBefore` the later ones. -/
theorem sortBy_eq_iff (key : α → κ) (hl : l.Nodup) :
    l.sortBy key = l' ↔ l'.Perm l ∧ l'.Pairwise (SortsBefore key l) := by
  constructor
  · rintro rfl
    exact ⟨sortBy_perm key l, sortBy_pairwise_sortsBefore key hl⟩
  · rintro ⟨hperm, hpair⟩
    refine ((sortBy_perm key l).trans hperm.symm).eq_of_pairwise (fun a b _ _ hab hba => ?_)
      (sortBy_pairwise_sortsBefore key hl) hpair
    rcases hab with hab | hab <;> rcases hba with hba | hba
    · exact absurd hba (lt_asymm hab)
    · exact absurd hba.1 hab.ne'
    · exact absurd hab.1 hba.ne'
    · exact absurd hba.2 (lt_asymm hab.2)

end List
