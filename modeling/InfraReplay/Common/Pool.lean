import InfraReplay.Common.Machine
import Mathlib.Algebra.GroupWithZero.Nat
import Mathlib.Data.List.Basic
import Mathlib.Data.List.Pairwise

/-!
# A pool of tasks around a shared state

`next s t` is the step that a task at stage `t` can take in the state `s`. In a `Pool` any task may
take its next step at any time, so `Pool.step` is a machine whose labels are places of tasks.

The rule is `Pool.Inv.step`. An invariant of a pool says something of the shared state, of each task
in that state, and of each two tasks; a step keeps it when the task that moves keeps its own part
and disturbs no other task. Tasks that all run down take only so many steps (`length_run_le`).
-/

namespace List

variable {α β : Type} {l : List α} {i : ℕ} {a : α} {f : α → List β} {p : α → Prop}

/-- What holds of every element and of the new one holds of every element when one is exchanged. -/
theorem forall_mem_set (hl : ∀ b ∈ l, p b) (ha : p a) : ∀ b ∈ l.set i a, p b := by
  intro b hb
  rcases mem_or_eq_of_mem_set hb with hb | rfl
  · exact hl b hb
  · exact ha

/-- What holds of every element and of the new one holds of every element when one is added. -/
theorem forall_mem_concat (hl : ∀ b ∈ l, p b) (ha : p a) : ∀ b ∈ l ++ [a], p b := by
  intro b hb
  rcases mem_append.mp hb with hb | hb
  · exact hl b hb
  · rw [mem_singleton.mp hb]
    exact ha

/-- An exchange that a function does not see. -/
theorem map_set_of_eq {g : α → β} (h : l[i]? = some a) {b : α} (hg : g b = g a) :
    (l.set i b).map g = l.map g := by
  obtain ⟨hi, rfl⟩ := getElem?_eq_some_iff.mp h
  apply ext_getElem?
  intro j
  rw [getElem?_map, getElem?_map, getElem?_set]
  split_ifs with hij
  · rw [← hij, getElem?_eq_getElem hi, Option.map_some, Option.map_some, hg]
  · rfl

/-- What an element contributes is exchanged when the element is. -/
theorem flatMap_set_perm (h : l[i]? = some a) (b : α) :
    (f a ++ (l.set i b).flatMap f).Perm (f b ++ l.flatMap f) := by
  induction l generalizing i with
  | nil => simp at h
  | cons c l ih =>
    cases i with
    | zero =>
      obtain rfl : c = a := by simpa using h
      rw [set_cons_zero, flatMap_cons, flatMap_cons, ← append_assoc, ← append_assoc]
      exact perm_append_comm.append_right _
    | succ i =>
      -- the contribution of the head goes to the front on both sides
      have hrest := (ih (by simpa using h)).append_left (f c)
      rw [set_cons_succ, flatMap_cons, flatMap_cons]
      exact (perm_append_comm_assoc _ _ _).trans
        (hrest.trans (perm_append_comm_assoc _ _ _))

/-- An element that contributes less takes something away. -/
theorem flatMap_set_sublist (h : l[i]? = some a) {b : α} (hb : f b <+ f a) :
    (l.set i b).flatMap f <+ l.flatMap f := by
  induction l generalizing i with
  | nil => simp at h
  | cons c l ih =>
    cases i with
    | zero =>
      obtain rfl : c = a := by simpa using h
      exact hb.append (Sublist.refl _)
    | succ i => exact (Sublist.refl _).append (ih (by simpa using h))

end List

/-- A shared state, and the stage of every task. -/
structure Pool (σ τ : Type) where
  state : σ
  tasks : List τ

namespace Pool

variable {σ τ : Type}

/-- The task at a place takes its next step. -/
def step (next : σ → τ → Option (τ × σ)) (p : Pool σ τ) (i : ℕ) : Option (Pool σ τ) :=
  p.tasks[i]?.bind fun t =>
    (next p.state t).map fun r => { state := r.2, tasks := p.tasks.set i r.1 }

variable {next : σ → τ → Option (τ × σ)} {shared : σ → Prop} {own : σ → τ → Prop}
  {apart : τ → τ → Prop} {p p' : Pool σ τ} {i : ℕ}

theorem step_eq_some_iff :
    p.step next i = some p' ↔ ∃ t t' s', p.tasks[i]? = some t ∧ next p.state t = some (t', s') ∧
      p' = { state := s', tasks := p.tasks.set i t' } := by
  rw [step, Option.bind_eq_some_iff]
  constructor
  · rintro ⟨t, ht, h⟩
    obtain ⟨⟨t', s'⟩, hnext, rfl⟩ := Option.map_eq_some_iff.mp h
    exact ⟨t, t', s', ht, hnext, rfl⟩
  · rintro ⟨t, t', s', ht, hnext, rfl⟩
    exact ⟨t, ht, Option.map_eq_some_iff.mpr ⟨(t', s'), hnext, rfl⟩⟩

/-- The tasks that do not move are still there. -/
theorem mem_set_of_ne {l : List τ} {t u : τ} (ht : l[i]? = some t) (hu : u ∈ l) (hne : u ≠ t)
    (t' : τ) : u ∈ l.set i t' := by
  obtain ⟨j, hj⟩ := List.mem_iff_getElem?.mp hu
  refine List.mem_iff_getElem?.mpr ⟨j, ?_⟩
  have hij : i ≠ j := by
    rintro rfl
    exact hne (Option.some.inj (hj.symm.trans ht))
  rw [List.getElem?_set_ne hij, hj]

/-- What holds of the shared state, of each task, and of each two tasks. -/
structure Inv (shared : σ → Prop) (own : σ → τ → Prop) (apart : τ → τ → Prop) (p : Pool σ τ) :
    Prop where
  shared : shared p.state
  own : ∀ t ∈ p.tasks, own p.state t
  apart : p.tasks.Pairwise apart

theorem pairwise_iff_of_ne {l : List τ} (hsymm : ∀ t u, apart t u → apart u t) :
    l.Pairwise apart ↔ ∀ (i j : ℕ) (t u : τ), i ≠ j → l[i]? = some t → l[j]? = some u →
      apart t u := by
  rw [List.pairwise_iff_getElem]
  constructor
  · intro h i j t u hij ht hu
    obtain ⟨hi, rfl⟩ := List.getElem?_eq_some_iff.mp ht
    obtain ⟨hj, rfl⟩ := List.getElem?_eq_some_iff.mp hu
    rcases Nat.lt_or_gt_of_ne hij with hlt | hlt
    · exact h i j hi hj hlt
    · exact hsymm _ _ (h j i hj hi hlt)
  · intro h i j hi hj hij
    exact h i j _ _ (Nat.ne_of_lt hij) (List.getElem?_eq_getElem hi) (List.getElem?_eq_getElem hj)

/-- A step keeps the invariant when it keeps the part of the task that moves and, for every other
task, the part of that task and of the two together. -/
theorem Inv.step (hp : p.Inv shared own apart) (hsymm : ∀ t u, apart t u → apart u t)
    (h : p.step next i = some p')
    (hstep : ∀ t t' s', p.tasks[i]? = some t → next p.state t = some (t', s') →
      shared s' ∧ own s' t' ∧
        ∀ u, own p.state u → apart t u → u ∈ p.tasks → own s' u ∧ apart t' u) :
    p'.Inv shared own apart := by
  obtain ⟨t, t', s', ht, hnext, rfl⟩ := step_eq_some_iff.mp h
  obtain ⟨hshared, hown, hothers⟩ := hstep t t' s' ht hnext
  -- a task at another place
  have hother : ∀ (j : ℕ) (u : τ), i ≠ j → p.tasks[j]? = some u → own s' u ∧ apart t' u := by
    intro j u hij hu
    have hmem : u ∈ p.tasks := List.mem_of_getElem? hu
    have hapart : apart t u := (pairwise_iff_of_ne hsymm).mp hp.apart i j t u hij ht hu
    exact hothers u (hp.own u hmem) hapart hmem
  have hset : ∀ (j : ℕ) (u : τ), (p.tasks.set i t')[j]? = some u →
      (i = j ∧ u = t') ∨ i ≠ j ∧ p.tasks[j]? = some u := by
    intro j u hu
    by_cases hij : i = j
    · subst hij
      have hi : i < p.tasks.length := (List.getElem?_eq_some_iff.mp ht).1
      rw [List.getElem?_set_self hi] at hu
      exact .inl ⟨rfl, (Option.some.inj hu).symm⟩
    · rw [List.getElem?_set_ne hij] at hu
      exact .inr ⟨hij, hu⟩
  refine ⟨hshared, fun u hu => ?_, (pairwise_iff_of_ne hsymm).mpr fun j k u v hjk hu hv => ?_⟩
  · obtain ⟨j, hj⟩ := List.mem_iff_getElem?.mp hu
    rcases hset j u hj with ⟨-, rfl⟩ | ⟨hij, hju⟩
    · exact hown
    · exact (hother j u hij hju).1
  · rcases hset j u hu with ⟨rfl, rfl⟩ | ⟨hij, hju⟩
    · rcases hset k v hv with ⟨rfl, rfl⟩ | ⟨hik, hkv⟩
      · exact absurd rfl hjk
      · exact (hother k v hik hkv).2
    · rcases hset k v hv with ⟨rfl, rfl⟩ | ⟨hik, hkv⟩
      · exact hsymm _ _ (hother j u hij hju).2
      · exact (pairwise_iff_of_ne hsymm).mp hp.apart j k u v hjk hju hkv

/-- One round: each task in its turn takes the steps `labels i`, which bring it from `A i` to `B i`
and the shared state from `P i` to `P (i + 1)`. -/
theorem exists_run_round {L : Type} (move : Pool σ τ → L → Option (Pool σ τ)) (P : ℕ → σ → Prop)
    (A B : ℕ → τ → Prop) (labels : ℕ → List L) (n : ℕ)
    (hround : ∀ i < n, ∀ s tasks t, P i s → tasks[i]? = some t → A i t →
      ∃ s' t', Machine.run move ⟨s, tasks⟩ (labels i) = some ⟨s', tasks.set i t'⟩ ∧
        P (i + 1) s' ∧ B i t')
    {s : σ} {tasks : List τ} (hs : P 0 s) (htasks : ∀ i < n, ∃ t, tasks[i]? = some t ∧ A i t) :
    ∃ s' tasks', Machine.run move ⟨s, tasks⟩ ((List.range n).flatMap labels) = some ⟨s', tasks'⟩ ∧
      P n s' ∧ tasks'.length = tasks.length ∧ ∀ i < n, ∃ t, tasks'[i]? = some t ∧ B i t := by
  -- the tasks below `k` have had their turn
  have hrounds : ∀ k ≤ n, ∃ s' tasks',
      Machine.run move ⟨s, tasks⟩ ((List.range k).flatMap labels) = some ⟨s', tasks'⟩ ∧ P k s' ∧
        tasks'.length = tasks.length ∧ (∀ i < k, ∃ t, tasks'[i]? = some t ∧ B i t) ∧
          ∀ i < n, k ≤ i → ∃ t, tasks'[i]? = some t ∧ A i t := by
    intro k
    induction k with
    | zero =>
      intro _
      exact ⟨s, tasks, rfl, hs, rfl, fun i hi => absurd hi (Nat.not_lt_zero i),
        fun i hi _ => htasks i hi⟩
    | succ k ih =>
      intro hk
      obtain ⟨s₁, tasks₁, hrun, hP, hlength, hdone, htodo⟩ := ih (Nat.le_of_succ_le hk)
      obtain ⟨t, ht, hA⟩ := htodo k hk (Nat.le_refl k)
      obtain ⟨s₂, t', hstep, hP', hB⟩ := hround k hk s₁ tasks₁ t hP ht hA
      have hlt : k < tasks₁.length := (List.getElem?_eq_some_iff.mp ht).1
      refine ⟨s₂, tasks₁.set k t', ?_, hP', by rw [List.length_set, hlength], fun i hi => ?_,
        fun i hi hki => ?_⟩
      · rw [List.range_succ, List.flatMap_append, List.flatMap_singleton,
          Machine.run_append hrun, hstep]
      · rcases Nat.lt_succ_iff_lt_or_eq.mp hi with hlt' | rfl
        · rw [List.getElem?_set_ne (Nat.ne_of_gt hlt')]
          exact hdone i hlt'
        · exact ⟨t', List.getElem?_set_self hlt, hB⟩
      · rw [List.getElem?_set_ne (Nat.ne_of_lt hki)]
        exact htodo i hi (Nat.le_of_succ_le hki)
  obtain ⟨s', tasks', hrun, hP, hlength, hdone, -⟩ := hrounds n (Nat.le_refl n)
  exact ⟨s', tasks', hrun, hP, hlength, hdone⟩

/-- When every step takes something off its task, there are only so many. -/
theorem length_run_le {left : τ → ℕ}
    (hleft : ∀ s t t' s', next s t = some (t', s') → left t' < left t) {is : List ℕ}
    (h : Machine.run (Pool.step next) p is = some p') : is.length ≤ (p.tasks.map left).sum := by
  induction is generalizing p with
  | nil => exact Nat.zero_le _
  | cons i is ih =>
    obtain ⟨p₁, hstep, hrun⟩ := Machine.run_cons_eq_some.mp h
    obtain ⟨t, t', s', ht, hnext, rfl⟩ := step_eq_some_iff.mp hstep
    obtain ⟨hi, rfl⟩ := List.getElem?_eq_some_iff.mp ht
    have hless := hleft _ _ _ _ hnext
    have hrest := ih hrun
    -- the sum before and after differ at the place of the task
    have hbefore : (p.tasks.map left).sum = ((p.tasks.take i).map left).sum +
        (left p.tasks[i] + ((p.tasks.drop (i + 1)).map left).sum) := by
      rw [← List.sum_cons, ← List.map_cons, List.getElem_cons_drop, ← List.sum_append,
        ← List.map_append, List.take_append_drop]
    have hafter : ((p.tasks.set i t').map left).sum = ((p.tasks.take i).map left).sum +
        (left t' + ((p.tasks.drop (i + 1)).map left).sum) := by
      rw [List.set_eq_take_append_cons_drop, if_pos hi, List.map_append, List.sum_append,
        List.map_cons, List.sum_cons]
    rw [List.length_cons]
    simp only at hrest
    omega

end Pool
