import Mathlib.Logic.Basic

/-!
# Machines that take labelled steps

A machine is a partial step function `step : S → L → Option S`: in a state, a label either names
a step that can be taken or it does not. `Machine.run` takes the steps of a list of labels, and
`Machine.Along ok` says that every step of a run meets a condition on the state it is taken in.

The rules are `Machine.invariant`, what holds at the start and is kept by every step that meets the
condition holds after every run whose steps meet it, and `Machine.simulates`, where every step is
matched by some steps of another machine, every run is.
-/

namespace Machine

variable {S L : Type}

/-- Take the steps of the labels, one after the other. -/
def run (step : S → L → Option S) : S → List L → Option S
  | s, [] => some s
  | s, l :: ls => (step s l).bind fun s' => run step s' ls

/-- Every step of the run is taken in a state that meets `ok` together with the label. -/
def Along (step : S → L → Option S) (ok : S → L → Prop) : S → List L → Prop
  | _, [] => True
  | s, l :: ls =>
    ok s l ∧
      match step s l with
      | some s' => Along step ok s' ls
      | none => True

instance decidableAlong (step : S → L → Option S) (ok : S → L → Prop)
    [∀ s l, Decidable (ok s l)] (s : S) : (ls : List L) → Decidable (Along step ok s ls)
  | [] => inferInstanceAs (Decidable True)
  | l :: ls =>
    match h : step s l with
    | some s' =>
      have := decidableAlong step ok s' ls
      decidable_of_iff (ok s l ∧ Along step ok s' ls) (by simp only [Along, h])
    | none => decidable_of_iff (ok s l) (by simp only [Along, h, and_true])

variable {step : S → L → Option S} {ok : S → L → Prop} {s s' : S}

theorem run_cons_eq_some {l : L} {ls : List L} :
    run step s (l :: ls) = some s' ↔ ∃ s₁, step s l = some s₁ ∧ run step s₁ ls = some s' := by
  rw [run, Option.bind_eq_some_iff]

/-- A condition that every step meets is met along every run. -/
theorem along_of_forall (h : ∀ s l, ok s l) (s : S) (ls : List L) : Along step ok s ls := by
  induction ls generalizing s with
  | nil => trivial
  | cons l ls ih =>
    refine ⟨h s l, ?_⟩
    cases step s l with
    | none => trivial
    | some s₁ => exact ih s₁

/-- A condition on the labels alone is met along every run of such labels. -/
theorem along_of_mem {p : L → Prop} {ls : List L} (hp : ∀ l ∈ ls, p l) :
    Along step (fun _ l => p l) s ls := by
  induction ls generalizing s with
  | nil => trivial
  | cons l ls ih =>
    refine ⟨hp l (by simp), ?_⟩
    cases step s l with
    | none => trivial
    | some s₁ => exact ih fun l' hl' => hp l' (List.mem_cons_of_mem _ hl')

/-- A condition on the labels alone can be added to the condition of a run. -/
theorem Along.and_mem {p : L → Prop} {ls : List L} (halong : Along step ok s ls)
    (hp : ∀ l ∈ ls, p l) : Along step (fun s l => ok s l ∧ p l) s ls := by
  induction ls generalizing s with
  | nil => trivial
  | cons l ls ih =>
    obtain ⟨hok, hrest⟩ := halong
    refine ⟨⟨hok, hp l (by simp)⟩, ?_⟩
    cases hs : step s l with
    | none => trivial
    | some s₁ =>
      rw [hs] at hrest
      exact ih hrest fun l' hl' => hp l' (List.mem_cons_of_mem _ hl')

/-- Two conditions that agree in every state that meets an invariant are met along the same runs. -/
theorem along_congr {ok' : S → L → Prop} {I : S → Prop}
    (hstep : ∀ s l s', I s → step s l = some s' → I s') (hok : ∀ s l, I s → (ok s l ↔ ok' s l))
    {ls : List L} (hinit : I s) : Along step ok s ls ↔ Along step ok' s ls := by
  induction ls generalizing s with
  | nil => exact Iff.rfl
  | cons l ls ih =>
    refine and_congr (hok s l hinit) ?_
    cases hs : step s l with
    | none => exact Iff.rfl
    | some s₁ => exact ih (hstep s l s₁ hinit hs)

/-- A condition that follows from another one under an invariant that the latter keeps. -/
theorem Along.of_invariant {ok' : S → L → Prop} {inv : S → Prop}
    (hstep : ∀ s l s', inv s → ok s l → step s l = some s' → inv s')
    (hok : ∀ s l, inv s → ok s l → ok' s l) {ls : List L} (hinit : inv s)
    (halong : Along step ok s ls) : Along step ok' s ls := by
  induction ls generalizing s with
  | nil => trivial
  | cons l ls ih =>
    obtain ⟨hl, hrest⟩ := halong
    refine ⟨hok s l hinit hl, ?_⟩
    cases hs : step s l with
    | none => trivial
    | some s₁ =>
      rw [hs] at hrest
      exact ih (hstep s l s₁ hinit hl hs) hrest

/-- An invariant of the steps that meet the condition holds after every run that meets it. -/
theorem invariant {inv : S → Prop}
    (hstep : ∀ s l s', inv s → ok s l → step s l = some s' → inv s') {ls : List L}
    (hinit : inv s) (halong : Along step ok s ls) (hrun : run step s ls = some s') : inv s' := by
  induction ls generalizing s with
  | nil => exact Option.some.inj hrun ▸ hinit
  | cons l ls ih =>
    obtain ⟨s₁, hs₁, hrest⟩ := run_cons_eq_some.mp hrun
    rw [Along, hs₁] at halong
    -- the rest of the run starts in `s₁`, which meets the invariant by the step
    exact ih (hstep s l s₁ hinit halong.1 hs₁) halong.2 hrest

/-- An invariant of every step holds after every run. -/
theorem invariant_run {inv : S → Prop} (hstep : ∀ s l s', inv s → step s l = some s' → inv s')
    {ls : List L} (hinit : inv s) (hrun : run step s ls = some s') : inv s' := by
  induction ls generalizing s with
  | nil => exact Option.some.inj hrun ▸ hinit
  | cons l ls ih =>
    obtain ⟨s₁, hs₁, hrest⟩ := run_cons_eq_some.mp hrun
    exact ih (hstep s l s₁ hinit hs₁) hrest

/-- An invariant of the steps that the labels of a run take holds after it. -/
theorem invariant_mem {I : S → Prop} {ls : List L}
    (hstep : ∀ s l s', I s → l ∈ ls → step s l = some s' → I s') (hinit : I s)
    (hrun : run step s ls = some s') : I s' :=
  invariant hstep hinit (along_of_mem fun _ hl => hl) hrun

theorem run_append {s₁ : S} {ls ls' : List L} (h : run step s ls = some s₁) :
    run step s (ls ++ ls') = run step s₁ ls' := by
  induction ls generalizing s with
  | nil => rw [List.nil_append, ← Option.some.inj h]
  | cons l ls ih =>
    obtain ⟨s₂, hs₂, hrest⟩ := run_cons_eq_some.mp h
    rw [List.cons_append, run, hs₂, Option.bind_some, ih hrest]

/-- A run whose steps are matched by steps of another machine, in states that meet `ok`. A state
from which such a state is reached meets it too. -/
theorem simulates {S' L' : Type} {step' : S' → L' → Option S'} {R : S → S' → Prop}
    {ok : S → Prop} (hok : ∀ s l s', step s l = some s' → ok s' → ok s)
    (hsim : ∀ s l s' t, R s t → ok s' → step s l = some s' →
      ∃ ls t', run step' t ls = some t' ∧ R s' t') {ls : List L} {t : S'} (hs : R s t)
    (hs' : ok s') (hrun : run step s ls = some s') :
    ∃ ls' t', run step' t ls' = some t' ∧ R s' t' := by
  -- `ok` holds at the end, so it held all along
  have hback : ∀ {ls : List L} {s : S}, run step s ls = some s' → ok s := by
    intro ls
    induction ls with
    | nil =>
      intro s h
      exact Option.some.inj h ▸ hs'
    | cons l ls ih =>
      intro s h
      obtain ⟨s₁, hs₁, hrest⟩ := run_cons_eq_some.mp h
      exact hok s l s₁ hs₁ (ih hrest)
  -- each step is followed by the run that simulates it
  induction ls generalizing s t with
  | nil => exact ⟨[], t, rfl, Option.some.inj hrun ▸ hs⟩
  | cons l ls ih =>
    obtain ⟨s₁, hs₁, hrest⟩ := run_cons_eq_some.mp hrun
    obtain ⟨ls₁, t₁, hrun₁, hR⟩ := hsim s l s₁ t hs (hback hrest) hs₁
    obtain ⟨ls₂, t₂, hrun₂, hR₂⟩ := ih hR hrest
    exact ⟨ls₁ ++ ls₂, t₂, (run_append hrun₁).trans hrun₂, hR₂⟩

end Machine
