import Mathlib.Data.Nat.Notation

/-!
# While loops

A loop is given by what one turn does with its variables: `turn s` is either the variables after
the turn or, when the loop is left, its result. Whether a loop ends depends on the turns, so a loop
is run for a number of turns (`While.run`), and `While.Ends turn s r` says that it ends with `r`
without naming that number.

* `While.exists_run`: a loop ends when a measure of its variables decreases with every turn.
* `While.Ends.invariant`: what every turn keeps holds when the loop is left.
* `While.result`: the result of a loop that is known to end.
-/

namespace While

variable {σ ρ : Type} {turn : σ → σ ⊕ ρ} {s s' : σ} {r r' : ρ}

/-- Take at most so many turns. -/
def run (turn : σ → σ ⊕ ρ) : ℕ → σ → Option ρ
  | 0, _ => none
  | fuel + 1, s =>
    match turn s with
    | .inl s' => run turn fuel s'
    | .inr r => some r

/-- The loop ends with the result. -/
inductive Ends (turn : σ → σ ⊕ ρ) : σ → ρ → Prop
  | stop {s : σ} {r : ρ} (h : turn s = .inr r) : Ends turn s r
  | next {s s' : σ} {r : ρ} (h : turn s = .inl s') (hrest : Ends turn s' r) : Ends turn s r

theorem run_of_inl (h : turn s = .inl s') (fuel : ℕ) :
    run turn (fuel + 1) s = run turn fuel s' := by
  rw [run, h]

theorem run_of_inr (h : turn s = .inr r) (fuel : ℕ) : run turn (fuel + 1) s = some r := by
  rw [run, h]

/-- A loop that is left within some number of turns ends. -/
theorem ends_of_run {fuel : ℕ} (h : run turn fuel s = some r) : Ends turn s r := by
  induction fuel generalizing s with
  | zero => cases h
  | succ fuel ih =>
    cases hturn : turn s with
    | inl s' =>
      rw [run_of_inl hturn] at h
      exact .next hturn (ih h)
    | inr r' =>
      rw [run_of_inr hturn] at h
      cases h
      exact .stop hturn

/-- A loop ends in one way. -/
theorem Ends.unique (h : Ends turn s r) (h' : Ends turn s r') : r = r' := by
  -- a turn is a function, so both runs stop or go on together
  induction h with
  | stop hturn =>
    cases h' with
    | stop hturn' =>
      rw [hturn] at hturn'
      exact Sum.inr.inj hturn'
    | next hturn' =>
      rw [hturn] at hturn'
      cases hturn'
  | next hturn _ ih =>
    cases h' with
    | stop hturn' =>
      rw [hturn] at hturn'
      cases hturn'
    | next hturn' hrest' =>
      rw [hturn] at hturn'
      cases hturn'
      exact ih hrest'

/-- What holds at the start and is kept by every turn holds when the loop is left. -/
theorem Ends.invariant {inv : σ → Prop} (hturn : ∀ s s', inv s → turn s = .inl s' → inv s')
    (h : Ends turn s r) (hs : inv s) : ∃ s', inv s' ∧ turn s' = .inr r := by
  induction h with
  | stop hstop => exact ⟨_, hs, hstop⟩
  | next hnext _ ih => exact ih (hturn _ _ hs hnext)

/-- A loop is left in as many turns as a decreasing measure allows. -/
theorem exists_run {I : σ → Prop} {μ : σ → ℕ}
    (hturn : ∀ s s', I s → turn s = .inl s' → I s' ∧ μ s' < μ s) {fuel : ℕ} (hs : I s)
    (hfuel : μ s < fuel) : ∃ r, run turn fuel s = some r := by
  induction fuel generalizing s with
  | zero => exact absurd hfuel (Nat.not_lt_zero _)
  | succ fuel ih =>
    cases hnext : turn s with
    | inl s' =>
      obtain ⟨hs', hless⟩ := hturn s s' hs hnext
      rw [run_of_inl hnext]
      -- one turn has used at least one unit of the measure
      exact ih hs' (Nat.lt_of_lt_of_le hless (Nat.le_of_lt_succ hfuel))
    | inr r => exact ⟨r, run_of_inr hnext fuel⟩

/-- The result of a loop that is left within the given number of turns. -/
def result (turn : σ → σ ⊕ ρ) (fuel : ℕ) (s : σ) (h : ∃ r, run turn fuel s = some r) : ρ :=
  (run turn fuel s).get (Option.isSome_iff_exists.mpr h)

/-- The loop ends with its result. -/
theorem ends_result {fuel : ℕ} (h : ∃ r, run turn fuel s = some r) :
    Ends turn s (result turn fuel s h) :=
  ends_of_run (Option.some_get _).symm

end While
