import InfraReplay.Common.Ownership
import InfraReplay.Common.Pool
import Mathlib.Data.Set.Card

/-!
# Tasks that go through phases

What a task may do next depends on what it has done: who has opened something answers for it, and
who has ended it does not. A task is given a phase, and `Phases.moves q s s' q'` says that in phase
`q` it may take the shared state from `s` to `s'` and is in phase `q'` then.

`Prog.Phased R P E p q` says that the task `p`, started in phase `q`, only makes such moves,
whatever the others leave behind between two of its steps, and that it ends in a phase that
satisfies `P` with its value or `E` with its exception. It is proved along the program
(`Phased.bind`, `Phased.tryCatch`, `Phased.tx`).

In a `Crew` any number of tasks take turns, and other things may change the state too.
`Crew.InPhases.run` is the rule: what the moves keep of the state and of all phases holds after
every run; and from the phase that a task is in it leads back to every step that it has taken.
-/

/-- What tasks may do: the moves from phase to phase, in states with `inv`; and how a step of theirs
may fail from outside. -/
structure Phases (σ ε Q : Type) where
  moves : Q → σ → σ → Q → Prop
  stays : ∀ q s, moves q s s q
  inv : σ → Prop
  outside : ε → Prop

namespace Prog

variable {σ τ ε α β Q : Type} {R : Phases σ ε Q} {P : α → Q → Prop} {E : ε → Q → Prop} {q : Q}

/-- The task makes only moves of its phase, and ends in a phase that fits its outcome. -/
def Phased (R : Phases σ ε Q) (P : α → Q → Prop) (E : ε → Q → Prop) : Prog σ ε α → Q → Prop
  | ret a, q => P a q
  | raise e, q => E e q
  | atomic upd next, q =>
    (∀ s, R.inv s → R.inv (upd s) ∧
      ∃ q', R.moves q s (upd s) q' ∧ (next (.ok s)).Phased R P E q') ∧
      ∀ e, R.outside e → (next (.error e)).Phased R P E q

/-! ### Rules -/

theorem Phased.bind {p : Prog σ ε α} {f : α → Prog σ ε β} {P' : β → Q → Prop}
    (hp : p.Phased R P E q) (hf : ∀ a q', P a q' → (f a).Phased R P' E q') :
    (p >>= f).Phased R P' E q := by
  show (p.bind f).Phased R P' E q
  induction p generalizing q with
  | ret a => exact hf a q hp
  | raise e => exact hp
  | atomic upd next ih =>
    refine ⟨fun s hs => ?_, fun e he => ih _ (hp.2 e he)⟩
    obtain ⟨hinv, q', hmove, hnext⟩ := hp.1 s hs
    exact ⟨hinv, q', hmove, ih _ hnext⟩

theorem Phased.tryCatch {p : Prog σ ε α} {handler : ε → Prog σ ε α} {E' : ε → Q → Prop}
    (hp : p.Phased R P E q) (hh : ∀ e q', E e q' → (handler e).Phased R P E' q') :
    (tryCatch p handler).Phased R P E' q := by
  show (p.tryCatch handler).Phased R P E' q
  induction p generalizing q with
  | ret a => exact hp
  | raise e => exact hh e q hp
  | atomic upd next ih =>
    refine ⟨fun s hs => ?_, fun e he => ih _ (hp.2 e he)⟩
    obtain ⟨hinv, q', hmove, hnext⟩ := hp.1 s hs
    exact ⟨hinv, q', hmove, ih _ hnext⟩

theorem Phased.mono {p : Prog σ ε α} {P' : α → Q → Prop} {E' : ε → Q → Prop}
    (hp : p.Phased R P E q) (hpost : ∀ a q', P a q' → P' a q')
    (hraised : ∀ e q', E e q' → E' e q') : p.Phased R P' E' q := by
  induction p generalizing q with
  | ret a => exact hpost a q hp
  | raise e => exact hraised e q hp
  | atomic upd next ih =>
    refine ⟨fun s hs => ?_, fun e he => ih _ (hp.2 e he)⟩
    obtain ⟨hinv, q', hmove, hnext⟩ := hp.1 s hs
    exact ⟨hinv, q', hmove, ih _ hnext⟩

/-- A transaction on a part of the state moves when it commits; else it is rolled back. -/
theorem Phased.zoom_tx {get : σ → τ} {set : σ → τ → σ} (hset : ∀ s, set s (get s) = s)
    {f : τ → Except ε (α × τ)}
    (hcommit : ∀ s a t, R.inv s → f (get s) = .ok (a, t) →
      R.inv (set s t) ∧ ∃ q', R.moves q s (set s t) q' ∧ P a q')
    (hraised : ∀ t e, f t = .error e → E e q) (houtside : ∀ e, R.outside e → E e q) :
    ((Prog.tx f).zoom get set).Phased R P E q := by
  refine ⟨fun s hs => ?_, fun e he => houtside e he⟩
  cases hf : f (get s) with
  | ok r =>
    obtain ⟨hinv, q', hmove, hpost⟩ := hcommit s r.1 r.2 hs hf
    simp only [Except.map, hf]
    exact ⟨hinv, q', hmove, hpost⟩
  | error e =>
    -- rolled back
    simp only [Except.map, hf, hset]
    exact ⟨hs, q, R.stays q s, hraised _ e hf⟩

/-- A transaction on the whole state. -/
theorem Phased.tx {f : σ → Except ε (α × σ)}
    (hcommit : ∀ s a s', R.inv s → f s = .ok (a, s') →
      R.inv s' ∧ ∃ q', R.moves q s s' q' ∧ P a q')
    (hraised : ∀ s e, f s = .error e → E e q) (houtside : ∀ e, R.outside e → E e q) :
    (Prog.tx f).Phased R P E q := by
  refine ⟨fun s hs => ?_, fun e he => houtside e he⟩
  cases hf : f s with
  | ok r =>
    obtain ⟨hinv, q', hmove, hpost⟩ := hcommit s r.1 r.2 hs hf
    simp only [hf]
    exact ⟨hinv, q', hmove, hpost⟩
  | error e =>
    simp only [hf]
    exact ⟨hs, q, R.stays q s, hraised s e hf⟩

end Prog

/-! ### Tasks that take turns -/

/-- Tasks around a shared state. -/
abbrev Crew (σ ε α : Type) := Pool σ (Prog σ ε α)

namespace Crew

variable {σ ε α Q : Type}

/-- What happens next. -/
inductive Turn (σ ε α : Type) where
  /-- A task comes in. -/
  | joins (p : Prog σ ε α)
  /-- A task takes its next step. -/
  | step (i : ℕ)
  /-- The next step of a task fails. -/
  | fails (i : ℕ) (e : ε)
  /-- Something else changes the state. -/
  | others (s : σ)

/-- One turn; `none` when the task that is named has ended or is none of the crew. -/
def step (c : Crew σ ε α) : Turn σ ε α → Option (Crew σ ε α)
  | .joins p => some { c with tasks := c.tasks ++ [p] }
  | .step i => Pool.step (fun s p => p.step s) c i
  | .fails i e => c.tasks[i]?.bind fun p => (p.fail e).map fun p' =>
      { c with tasks := c.tasks.set i p' }
  | .others s => some { c with state := s }

/-- Tasks that satisfy `start` come in, steps fail as `outside` says, and what else changes the
state satisfies `rely`. -/
def Allowed (start : Prog σ ε α → Prop) (outside : ε → Prop) (rely : σ → σ → Prop)
    (c : Crew σ ε α) : Turn σ ε α → Prop
  | .joins p => start p
  | .step _ => True
  | .fails _ e => outside e
  | .others s => rely c.state s

variable {R : Phases σ ε Q} {P : α → Q → Prop} {E : ε → Q → Prop} {start : Prog σ ε α → Prop}
  {rely : σ → σ → Prop} {I : σ → (ℕ → Q) → Prop} {c c' : Crew σ ε α} {turns : List (Turn σ ε α)}
  {i : ℕ} {p p' : Prog σ ε α} {q q₀ : Q}

/-! ### One turn -/

/-- A step of a task is a move of its phase. -/
theorem exists_move_of_step {s s' : σ} (hp : p.Phased R P E q) (hs : R.inv s)
    (h : p.step s = some (p', s')) :
    R.inv s' ∧ ∃ q', R.moves q s s' q' ∧ p'.Phased R P E q' := by
  cases p with
  | ret a => cases h
  | raise e => cases h
  | atomic upd next =>
    obtain ⟨rfl, rfl⟩ := Prod.mk.inj (Option.some.inj h)
    exact hp.1 s hs

/-- A task whose step fails stays in its phase. -/
theorem phased_of_fail {e : ε} (hp : p.Phased R P E q) (he : R.outside e)
    (h : p.fail e = some p') : p'.Phased R P E q := by
  cases p with
  | ret a => cases h
  | raise e => cases h
  | atomic upd next =>
    obtain rfl := Option.some.inj h
    exact hp.2 e he

/-- A task at its place after an exchange. -/
theorem getElem?_set_cases {l : List (Prog σ ε α)} {j : ℕ} (h : (l.set i p')[j]? = some p) :
    i = j ∧ p = p' ∨ i ≠ j ∧ l[j]? = some p := by
  rw [List.getElem?_set] at h
  split_ifs at h with hij hlt
  · exact .inl ⟨hij, (Option.some.inj h).symm⟩
  · exact .inr ⟨hij, h⟩

/-! ### All tasks -/

/-- Every task is in a phase, which is `q₀` for the tasks to come, and the phases fit the state. -/
structure InPhases (R : Phases σ ε Q) (P : α → Q → Prop) (E : ε → Q → Prop) (q₀ : Q)
    (I : σ → (ℕ → Q) → Prop) (c : Crew σ ε α) (phase : ℕ → Q) : Prop where
  inv : R.inv c.state
  task : ∀ (i : ℕ) (p : Prog σ ε α), c.tasks[i]? = some p → p.Phased R P E (phase i)
  beyond : ∀ i, c.tasks.length ≤ i → phase i = q₀
  fits : I c.state phase

/-- Every step of the task at the place satisfies `good`. -/
def Steps (i : ℕ) (good : σ → σ → Prop) (c : Crew σ ε α) (turn : Turn σ ε α) : Prop :=
  turn = .step i → ∀ c', step c turn = some c' → good c.state c'.state

/-- A turn keeps every task in a phase when the moves, and what else happens, keep the phases
fitting; and the task that takes a step makes a move. -/
theorem InPhases.turn {turn : Turn σ ε α} {phase : ℕ → Q} (hc : c.InPhases R P E q₀ I phase)
    (hstart : ∀ p, start p → p.Phased R P E q₀)
    (hmoves : ∀ s s' phase i q', R.inv s → I s phase → R.moves (phase i) s s' q' →
      I s' (Function.update phase i q'))
    (hothers : ∀ s s' phase, R.inv s → I s phase → rely s s' → R.inv s' ∧ I s' phase)
    (hallowed : Allowed start R.outside rely c turn) (h : step c turn = some c') :
    ∃ phase', c'.InPhases R P E q₀ I phase' ∧
      ∀ i, turn = .step i ∧ R.moves (phase i) c.state c'.state (phase' i) ∨
        turn ≠ .step i ∧ phase' i = phase i := by
  cases turn with
  | joins p =>
    obtain rfl := Option.some.inj h
    refine ⟨phase, ⟨hc.inv, fun j p₁ hj => ?_, fun j hj => hc.beyond j ?_, hc.fits⟩,
      fun _ => .inr ⟨by simp, rfl⟩⟩
    · rw [List.getElem?_append] at hj
      split_ifs at hj with hlt
      · exact hc.task j p₁ hj
      · -- the task that has come in
        rw [List.getElem?_singleton] at hj
        split_ifs at hj with hzero
        rw [hc.beyond j (Nat.le_of_not_lt hlt), ← Option.some.inj hj]
        exact hstart p hallowed
    · rw [List.length_append] at hj
      omega
  | step i =>
    have h : Pool.step (fun s p => p.step s) c i = some c' := h
    obtain ⟨p, p', s', hget, hstep, rfl⟩ := Pool.step_eq_some_iff.mp h
    -- the task moves on in the phases; every other task keeps its own
    obtain ⟨hinv, q', hmove, hp'⟩ := exists_move_of_step (hc.task i p hget) hc.inv hstep
    have hlt := (List.getElem?_eq_some_iff.mp hget).1
    have hfits := hmoves _ _ _ i q' hc.inv hc.fits hmove
    refine ⟨Function.update phase i q', ⟨hinv, fun j p₁ hj => ?_, fun j hj => ?_, hfits⟩,
      fun j => ?_⟩
    · rcases getElem?_set_cases hj with ⟨rfl, rfl⟩ | ⟨hij, hj⟩
      · rw [Function.update_self]
        exact hp'
      · rw [Function.update_of_ne (Ne.symm hij)]
        exact hc.task j p₁ hj
    · rw [List.length_set] at hj
      rw [Function.update_of_ne (by omega)]
      exact hc.beyond j hj
    · by_cases hij : i = j
      · subst hij
        rw [Function.update_self]
        exact .inl ⟨rfl, hmove⟩
      · rw [Function.update_of_ne (Ne.symm hij)]
        exact .inr ⟨fun heq => hij (Turn.step.inj heq), rfl⟩
  | fails i e =>
    obtain ⟨p, hget, h⟩ := Option.bind_eq_some_iff.mp h
    obtain ⟨p', hfail, rfl⟩ := Option.map_eq_some_iff.mp h
    -- an operation that raises leaves the state alone, so nobody's phase changes
    refine ⟨phase, ⟨hc.inv, fun j p₁ hj => ?_, fun j hj => hc.beyond j ?_, hc.fits⟩,
      fun _ => .inr ⟨by simp, rfl⟩⟩
    · rcases getElem?_set_cases hj with ⟨rfl, rfl⟩ | ⟨-, hj⟩
      · exact phased_of_fail (hc.task i p hget) hallowed hfail
      · exact hc.task j p₁ hj
    · rwa [List.length_set] at hj
  | others s =>
    obtain rfl := Option.some.inj h
    obtain ⟨hinv, hfits⟩ := hothers _ _ _ hc.inv hc.fits hallowed
    exact ⟨phase, ⟨hinv, hc.task, hc.beyond, hfits⟩, fun _ => .inr ⟨by simp, rfl⟩⟩

/-- **Phases.** After every run the tasks are in phases that fit the state. And where a move into a
clean phase comes from a clean phase and is good, a task that is in a clean phase has been in one
all along, and all its steps were good. -/
theorem InPhases.run {phase : ℕ → Q} (hc : c.InPhases R P E q₀ I phase)
    (hstart : ∀ p, start p → p.Phased R P E q₀)
    (hmoves : ∀ s s' phase i q', R.inv s → I s phase → R.moves (phase i) s s' q' →
      I s' (Function.update phase i q'))
    (hothers : ∀ s s' phase, R.inv s → I s phase → rely s s' → R.inv s' ∧ I s' phase)
    (hallowed : Machine.Along step (Allowed start R.outside rely) c turns)
    (h : Machine.run step c turns = some c') :
    ∃ phase', c'.InPhases R P E q₀ I phase' ∧
      ∀ (clean : Q → Prop) (good : σ → σ → Prop),
        (∀ q s s' q', R.moves q s s' q' → clean q' → clean q ∧ good s s') →
          ∀ i, clean (phase' i) → clean (phase i) ∧ Machine.Along step (Steps i good) c turns := by
  induction turns generalizing c phase with
  | nil =>
    obtain rfl := Option.some.inj h
    exact ⟨phase, hc, fun _ _ _ _ hclean => ⟨hclean, trivial⟩⟩
  | cons turn turns ih =>
    obtain ⟨c₁, hstep, hrest⟩ := Machine.run_cons_eq_some.mp h
    rw [Machine.Along, hstep] at hallowed
    obtain ⟨phase₁, hc₁, hphase₁⟩ := hc.turn hstart hmoves hothers hallowed.1 hstep
    obtain ⟨phase', hc', hback'⟩ := ih hc₁ hallowed.2 hrest
    refine ⟨phase', hc', fun clean good hback i hclean => ?_⟩
    -- back over the rest of the run, and then over the turn
    obtain ⟨hclean₁, halong⟩ := hback' clean good hback i hclean
    rw [Machine.Along, hstep]
    rcases hphase₁ i with ⟨-, hmove⟩ | ⟨hother, heq⟩
    · obtain ⟨hclean₀, hgood⟩ := hback _ _ _ _ hmove hclean₁
      refine ⟨hclean₀, fun _ c₂ hstep₂ => ?_, halong⟩
      obtain rfl := Option.some.inj (hstep.symm.trans hstep₂)
      exact hgood
    · rw [heq] at hclean₁
      exact ⟨hclean₁, fun heq => absurd heq hother, halong⟩

/-- Things each of which a task that has not returned answers for are no more than these tasks. -/
theorem encard_le_countP {κ : Type} {things : Set κ} (held : ℕ → Option κ)
    (h : ∀ k ∈ things, ∃ i p, c.tasks[i]? = some p ∧ p.value? = none ∧ held i = some k) :
    things.encard ≤ c.tasks.countP fun p => p.value?.isNone := by
  classical
  -- the things are among those held by the tasks that have not returned
  let unreturned := c.tasks.zipIdx.filter fun x => x.1.value?.isNone
  let keys := unreturned.filterMap fun x => held x.2
  have hsub : things ⊆ (keys.toFinset : Set κ) := by
    intro k hk
    obtain ⟨i, p, hget, hvalue, hheld⟩ := h k hk
    have hmem : (p, i) ∈ unreturned :=
      List.mem_filter.mpr ⟨List.mk_mem_zipIdx_iff_getElem?.mpr hget, by rw [hvalue]; rfl⟩
    rw [List.coe_toFinset]
    exact List.mem_filterMap.mpr ⟨(p, i), hmem, hheld⟩
  have hcount : unreturned.length = c.tasks.countP fun p => p.value?.isNone := by
    rw [← List.countP_eq_length_filter]
    conv_rhs => rw [← List.zipIdx_map_fst 0 c.tasks, List.countP_map]
    rfl
  calc things.encard
      ≤ (keys.toFinset : Set κ).encard := Set.encard_le_encard hsub
    _ = keys.toFinset.card := Set.encard_coe_eq_coe_finsetCard _
    _ ≤ keys.length := by exact_mod_cast keys.toFinset_card_le
    _ ≤ unreturned.length := by exact_mod_cast List.length_filterMap_le _ _
    _ = _ := by rw [hcount]

end Crew
