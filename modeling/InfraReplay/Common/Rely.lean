import InfraReplay.Common.Pool
import InfraReplay.Common.Prog

/-!
# A task amid the steps of others

`rely` is a relation that every step of the others satisfies. `Prog.Amid rely post pre p` is the
judgement that `p`, started where `pre` holds, ends with a value and in a state that satisfy
`post`, whatever the others do between its steps; what is asserted between two steps has to be
stable under `rely`. A failure from outside leaves the state alone, and an exception ends the task
without a promise.

`Amid` is proved along the program (`Amid.bind`, `Amid.tx_bind`) and holds of every run in which
the task and the others take turns (`Amid.sound`). When the others are tasks themselves, each of
their steps has to satisfy `rely` (`Prog.Guarantees`), and the machine of the task and its company
takes turns in this sense (`Company.takesTurns`).
-/

namespace Prog

variable {σ ε α β : Type} {rely guar : σ → σ → Prop} {pre : σ → Prop} {post : α → σ → Prop}

/-- The others do not end what holds. -/
def Stable (rely : σ → σ → Prop) (assertion : σ → Prop) : Prop :=
  ∀ s s', assertion s → rely s s' → assertion s'

/-- The task keeps its promise amid steps of `rely`. -/
def Amid (rely : σ → σ → Prop) (post : α → σ → Prop) : (σ → Prop) → Prog σ ε α → Prop
  | pre, ret a => ∀ s, pre s → post a s
  | _, raise _ => True
  | pre, atomic upd next =>
    (∀ s, pre s → ∃ mid, Stable rely mid ∧ mid (upd s) ∧ (next (.ok s)).Amid rely post mid) ∧
      ∀ e, (next (.error e)).Amid rely post pre

/-- Every step of the task satisfies `guar`. -/
def Guarantees (guar : σ → σ → Prop) : Prog σ ε α → Prop
  | atomic upd next => (∀ s, guar s (upd s)) ∧ ∀ r, (next r).Guarantees guar
  | _ => True

/-- What others leave and what others leave, they leave together. -/
theorem Stable.and {assertion assertion' : σ → Prop} (h : Stable rely assertion)
    (h' : Stable rely assertion') : Stable rely fun s => assertion s ∧ assertion' s :=
  fun s s' hs hrely => ⟨h s s' hs.1 hrely, h' s s' hs.2 hrely⟩

/-! ### Rules -/

theorem Amid.pure {a : α} (h : ∀ s, pre s → post a s) : (pure a : Prog σ ε α).Amid rely post pre :=
  h

/-- Raising asks for nothing. -/
theorem Amid.throw (e : ε) : (throw e : Prog σ ε α).Amid rely post pre := trivial

/-- More may be assumed. -/
theorem Amid.weaken {pre' : σ → Prop} {p : Prog σ ε α} (hp : p.Amid rely post pre)
    (h : ∀ s, pre' s → pre s) : p.Amid rely post pre' := by
  induction p generalizing pre pre' with
  | ret a => exact fun s hs => hp s (h s hs)
  | raise e => trivial
  | atomic upd next ih => exact ⟨fun s hs => hp.1 s (h s hs), fun e => ih _ (hp.2 e) h⟩

/-- Where nothing can be, everything is kept. -/
theorem Amid.of_false {p : Prog σ ε α} (h : ∀ s, ¬pre s) : p.Amid rely post pre := by
  induction p with
  | ret a => exact fun s hs => absurd hs (h s)
  | raise e => trivial
  | atomic upd next ih => exact ⟨fun s hs => absurd hs (h s), fun e => ih _⟩

/-- What comes after a task starts with what the task promises. -/
theorem Amid.bind {p : Prog σ ε α} {f : α → Prog σ ε β} {post' : β → σ → Prop}
    (hp : p.Amid rely post pre) (hf : ∀ a s, post a s → (f a).Amid rely post' (post a)) :
    (p >>= f).Amid rely post' pre := by
  show (p.bind f).Amid rely post' pre
  induction p generalizing pre with
  | ret a =>
    by_cases hex : ∃ s, pre s
    · obtain ⟨s, hs⟩ := hex
      exact (hf a s (hp s hs)).weaken hp
    · exact Amid.of_false fun s hs => hex ⟨s, hs⟩
  | raise e => trivial
  | atomic upd next ih =>
    refine ⟨fun s hs => ?_, fun e => ih _ (hp.2 e)⟩
    obtain ⟨mid, hstable, hmid, hnext⟩ := hp.1 s hs
    exact ⟨mid, hstable, hmid, ih _ hnext⟩

/-- Less may be promised. -/
theorem Amid.mono {post' : α → σ → Prop} {p : Prog σ ε α} (hp : p.Amid rely post pre)
    (h : ∀ a s, post a s → post' a s) : p.Amid rely post' pre := by
  have hbind : (p >>= Pure.pure).Amid rely post' pre :=
    hp.bind fun a _ _ => Amid.pure fun s hs => h a s hs
  rwa [bind_pure] at hbind

/-- A transaction, and what follows it. For every outcome there has to be a stable assertion that
the rest can start from. -/
theorem Amid.tx_bind {f : σ → Except ε (α × σ)} {g : α → Prog σ ε β} {post' : β → σ → Prop}
    (h : ∀ s a s', pre s → f s = .ok (a, s') →
      ∃ mid, Stable rely mid ∧ mid s' ∧ (g a).Amid rely post' mid) :
    (Prog.tx f >>= g).Amid rely post' pre := by
  refine ⟨fun s hs => ?_, fun e => trivial⟩
  cases hf : f s with
  | ok r =>
    simp only [hf]
    exact h s r.1 r.2 hs hf
  | error e =>
    -- rolled back, and the exception ends the task
    simp only [hf]
    exact ⟨fun _ => True, fun _ _ _ _ => trivial, trivial, trivial⟩

/-- A query, and what follows it. -/
theorem Amid.read_bind {f : σ → α} {g : α → Prog σ ε β} {post' : β → σ → Prop}
    (h : ∀ s, pre s → ∃ mid, Stable rely mid ∧ mid s ∧ (g (f s)).Amid rely post' mid) :
    (Prog.read f >>= g).Amid rely post' pre := by
  refine Amid.tx_bind fun s a s' hs hf => ?_
  obtain ⟨rfl, rfl⟩ := Prod.mk.inj (Except.ok.inj hf)
  exact h s hs

/-- A call, and what follows it. -/
theorem Amid.call_bind {f : σ → Except ε α × σ} {g : α → Prog σ ε β} {post' : β → σ → Prop}
    (h : ∀ s a s', pre s → f s = (.ok a, s') →
      ∃ mid, Stable rely mid ∧ mid s' ∧ (g a).Amid rely post' mid) :
    (Prog.call f >>= g).Amid rely post' pre := by
  rw [Prog.call, bind_assoc]
  refine Amid.tx_bind fun s outcome s' hs hf => ?_
  cases outcome with
  | ok a => exact h s a s' hs (Except.ok.inj hf)
  | error e => exact ⟨fun _ => True, fun _ _ _ _ => trivial, trivial, trivial⟩

/-- A transaction at the end. -/
theorem Amid.tx {f : σ → Except ε (α × σ)}
    (h : ∀ s a s', pre s → f s = .ok (a, s') → post a s' ∧ Stable rely (post a)) :
    (Prog.tx f).Amid rely post pre := by
  have hbind : (Prog.tx f >>= Pure.pure).Amid rely post pre := by
    refine Amid.tx_bind fun s a s' hs hf => ?_
    obtain ⟨hpost, hstable⟩ := h s a s' hs hf
    exact ⟨post a, hstable, hpost, Amid.pure fun _ hs => hs⟩
  rwa [bind_pure] at hbind

/-! ### What the others guarantee -/

/-- What two programs guarantee, their sequence guarantees. -/
theorem Guarantees.bind {p : Prog σ ε α} {f : α → Prog σ ε β} (hp : p.Guarantees guar)
    (hf : ∀ a, (f a).Guarantees guar) : (p >>= f).Guarantees guar := by
  show (p.bind f).Guarantees guar
  induction p with
  | ret a => exact hf a
  | raise e => trivial
  | atomic upd next ih => exact ⟨hp.1, fun r => ih r (hp.2 r)⟩

/-- A transaction that is rolled back changes nothing. -/
theorem Guarantees.tx {f : σ → Except ε (α × σ)} (hrefl : ∀ s, guar s s)
    (h : ∀ s a s', f s = .ok (a, s') → guar s s') : (Prog.tx f).Guarantees guar := by
  refine ⟨fun s => ?_, fun r => ?_⟩
  · cases hf : f s with
    | ok r =>
      simp only [hf]
      exact h s r.1 r.2 hf
    | error e =>
      simp only [hf]
      exact hrefl s
  · cases r with
    | error e => trivial
    | ok s =>
      cases hf : f s with
      | ok r =>
        simp only [hf]
        trivial
      | error e =>
        simp only [hf]
        trivial

/-- A call guarantees it also where it raises. -/
theorem Guarantees.call {f : σ → Except ε α × σ} (hrefl : ∀ s, guar s s)
    (h : ∀ s, guar s (f s).2) : (Prog.call f).Guarantees guar := by
  refine (Guarantees.tx hrefl fun s outcome s' hf => ?_).bind fun outcome => ?_
  · have hcall := h s
    rwa [Except.ok.inj hf] at hcall
  · cases outcome <;> trivial

/-- The handler guarantees it as well. -/
theorem Guarantees.tryCatch {p : Prog σ ε α} {handler : ε → Prog σ ε α} (hp : p.Guarantees guar)
    (hh : ∀ e, (handler e).Guarantees guar) : (tryCatch p handler).Guarantees guar := by
  show (p.tryCatch handler).Guarantees guar
  induction p with
  | ret a => trivial
  | raise e => exact hh e
  | atomic upd next ih => exact ⟨hp.1, fun r => ih r (hp.2 r)⟩

/-- A read guarantees every reflexive relation. -/
theorem Guarantees.read (f : σ → α) (hrefl : ∀ s, guar s s) :
    (Prog.read f : Prog σ ε α).Guarantees guar :=
  Guarantees.tx hrefl fun s _ _ h => (Prod.mk.inj (Except.ok.inj h)).2 ▸ hrefl s

/-- A task that guarantees something takes steps that satisfy it, and goes on guaranteeing it. -/
theorem Guarantees.step {p p' : Prog σ ε α} {s s' : σ} (hp : p.Guarantees guar)
    (h : p.step s = some (p', s')) : guar s s' ∧ p'.Guarantees guar := by
  cases p with
  | ret a => cases h
  | raise e => cases h
  | atomic upd next =>
    obtain ⟨rfl, rfl⟩ := Prod.mk.inj (Option.some.inj h)
    exact ⟨hp.1 s, hp.2 _⟩

/-- A program that fails at a step guarantees the rest. -/
theorem Guarantees.fail {p p' : Prog σ ε α} {e : ε} (hp : p.Guarantees guar)
    (h : p.fail e = some p') : p'.Guarantees guar := by
  cases p with
  | ret a => cases h
  | raise e => cases h
  | atomic upd next =>
    obtain rfl := Option.some.inj h
    exact hp.2 _

/-- A task that only reads, and reads from one state. -/
theorem Guarantees.returns {p : Prog σ ε α} (hp : p.Guarantees Eq) {inv : σ → Prop} {s : σ}
    {a : α} (hs : inv s) (hrun : (p.run s).1 = .ok a) : p.Returns inv a := by
  induction p with
  | ret b =>
    obtain rfl := Except.ok.inj hrun
    exact .ret
  | raise e => cases hrun
  | atomic upd next ih =>
    refine .atomic hs (ih _ (hp.2 _) ?_)
    rw [hp.1 s]
    rw [run] at hrun
    rwa [← hp.1 s] at hrun ⊢

/-! ### Runs -/

/-- The task and the others take turns. -/
inductive TakesTurns (rely : σ → σ → Prop) (p : Prog σ ε α) (s : σ) : Prog σ ε α → σ → Prop
  | start : TakesTurns rely p s p s
  | step {q q' : Prog σ ε α} {s₁ s₂ : σ} (h : TakesTurns rely p s q s₁)
      (hstep : q.step s₁ = some (q', s₂)) : TakesTurns rely p s q' s₂
  | fail {q q' : Prog σ ε α} {s₁ : σ} (e : ε) (h : TakesTurns rely p s q s₁)
      (hfail : q.fail e = some q') : TakesTurns rely p s q' s₁
  | others {q : Prog σ ε α} {s₁ s₂ : σ} (h : TakesTurns rely p s q s₁) (hrely : rely s₁ s₂) :
      TakesTurns rely p s q s₂

/-- A promise is kept in every run, however long the others go on after the end. -/
theorem Amid.sound {p : Prog σ ε α} {s s' : σ} {a : α} (hp : p.Amid rely post pre)
    (hstable : Stable rely pre) (hs : pre s) (h : TakesTurns rely p s (ret a) s') : post a s' := by
  -- between two steps something stable holds that the rest can start from
  have hmid : ∀ {q s₁}, TakesTurns rely p s q s₁ →
      ∃ mid, Stable rely mid ∧ mid s₁ ∧ q.Amid rely post mid := by
    intro q s₁ hturns
    induction hturns with
    | start => exact ⟨pre, hstable, hs, hp⟩
    | @step q q' s₁ s₂ _ hstep ih =>
      obtain ⟨mid, -, hs₁, hq⟩ := ih
      cases q with
      | ret a => cases hstep
      | raise e => cases hstep
      | atomic upd next =>
        obtain ⟨rfl, rfl⟩ := Prod.mk.inj (Option.some.inj hstep)
        exact hq.1 s₁ hs₁
    | @fail q q' s₁ e _ hfail ih =>
      obtain ⟨mid, hmid, hs₁, hq⟩ := ih
      cases q with
      | ret a => cases hfail
      | raise e => cases hfail
      | atomic upd next =>
        obtain rfl := Option.some.inj hfail
        exact ⟨mid, hmid, hs₁, hq.2 e⟩
    | @others q s₁ s₂ _ hrely ih =>
      obtain ⟨mid, hmid, hs₁, hq⟩ := ih
      exact ⟨mid, hmid, hmid s₁ s₂ hs₁ hrely, hq⟩
  obtain ⟨mid, -, hs', hret⟩ := hmid h
  exact hret s' hs'

end Prog

/-! ### A task and its company -/

/-- A task, the tasks that came in so far, and the state they share. -/
structure Company (σ ε α β : Type) where
  state : σ
  task : Prog σ ε α
  others : List (Prog σ ε β)

namespace Company

variable {σ ε α β ι : Type}

/-- Whose turn it is. A turn of a task is its next step, or that step fails. -/
inductive Turn (ε ι : Type) where
  | task
  | taskFails (e : ε)
  /-- Another task comes in. -/
  | joins (i : ι)
  | other (n : ℕ)
  | otherFails (n : ℕ) (e : ε)

/-- One turn, where the `i`-th of the tasks that may come in is `start i`. -/
def step (start : ι → Prog σ ε β) (c : Company σ ε α β) : Turn ε ι → Option (Company σ ε α β)
  | .task => (c.task.step c.state).map fun r => { c with task := r.1, state := r.2 }
  | .taskFails e => (c.task.fail e).map fun p => { c with task := p }
  | .joins i => some { c with others := c.others ++ [start i] }
  | .other n => c.others[n]?.bind fun q => (q.step c.state).map fun r =>
      { c with state := r.2, others := c.others.set n r.1 }
  | .otherFails n e => c.others[n]?.bind fun q => (q.fail e).map fun q' =>
      { c with others := c.others.set n q' }

/-- What holds after any number of turns. -/
structure Inv (rely : σ → σ → Prop) (p : Prog σ ε α) (s : σ) (c : Company σ ε α β) : Prop where
  turns : Prog.TakesTurns rely p s c.task c.state
  others : ∀ q ∈ c.others, q.Guarantees rely

variable {start : ι → Prog σ ε β} {rely : σ → σ → Prop} {p : Prog σ ε α} {s : σ}
  {c c' : Company σ ε α β}

/-- A turn of the task, or of one of the others, keeps the invariant. -/
theorem Inv.step (hstart : ∀ i, (start i).Guarantees rely) {turn : Turn ε ι} (hc : c.Inv rely p s)
    (h : c.step start turn = some c') : c'.Inv rely p s := by
  cases turn with
  | task =>
    obtain ⟨r, hr, rfl⟩ := Option.map_eq_some_iff.mp h
    exact ⟨hc.turns.step hr, hc.others⟩
  | taskFails e =>
    obtain ⟨p', hp', rfl⟩ := Option.map_eq_some_iff.mp h
    exact ⟨hc.turns.fail e hp', hc.others⟩
  | joins i =>
    obtain rfl := Option.some.inj h
    exact ⟨hc.turns, List.forall_mem_concat hc.others (hstart i)⟩
  | other n =>
    obtain ⟨q, hq, h⟩ := Option.bind_eq_some_iff.mp h
    obtain ⟨r, hr, rfl⟩ := Option.map_eq_some_iff.mp h
    obtain ⟨hrely, hrest⟩ := (hc.others q (List.mem_of_getElem? hq)).step hr
    exact ⟨hc.turns.others hrely, List.forall_mem_set hc.others hrest⟩
  | otherFails n e =>
    obtain ⟨q, hq, h⟩ := Option.bind_eq_some_iff.mp h
    obtain ⟨q₁, hfail, rfl⟩ := Option.map_eq_some_iff.mp h
    -- the task that failed goes on guaranteeing what it did
    have hrest : q₁.Guarantees rely := (hc.others q (List.mem_of_getElem? hq)).fail hfail
    exact ⟨hc.turns, List.forall_mem_set hc.others hrest⟩

/-- When every step of the others satisfies `rely`, the task and the others take turns. -/
theorem takesTurns (hstart : ∀ i, (start i).Guarantees rely) {turns : List (Turn ε ι)}
    (h : Machine.run (step start) ⟨s, p, []⟩ turns = some c) :
    Prog.TakesTurns rely p s c.task c.state := by
  have hinit : (⟨s, p, []⟩ : Company σ ε α β).Inv rely p s :=
    ⟨.start, fun q hq => absurd hq List.not_mem_nil⟩
  exact (Machine.invariant_run (fun _ _ _ hc hstep => hc.step hstart hstep) hinit h).turns

/-! ### From one moment to a later one -/

/-- Whatever is under way guarantees `guar`. -/
structure Guards (guar : σ → σ → Prop) (c : Company σ ε α β) : Prop where
  task : c.task.Guarantees guar
  others : ∀ q ∈ c.others, q.Guarantees guar

variable {guar : σ → σ → Prop}

/-- A turn satisfies what is guaranteed, and it goes on being guaranteed. -/
theorem Guards.step (hrefl : ∀ s, guar s s) (hstart : ∀ i, (start i).Guarantees guar)
    {turn : Turn ε ι} (hc : c.Guards guar) (h : c.step start turn = some c') :
    guar c.state c'.state ∧ c'.Guards guar := by
  cases turn with
  | task =>
    obtain ⟨r, hr, rfl⟩ := Option.map_eq_some_iff.mp h
    obtain ⟨hguar, hrest⟩ := hc.task.step hr
    exact ⟨hguar, hrest, hc.others⟩
  | taskFails e =>
    -- nothing is written by an operation that raises
    obtain ⟨p', hp', rfl⟩ := Option.map_eq_some_iff.mp h
    exact ⟨hrefl c.state, hc.task.fail hp', hc.others⟩
  | joins i =>
    obtain rfl := Option.some.inj h
    exact ⟨hrefl c.state, hc.task, List.forall_mem_concat hc.others (hstart i)⟩
  | other n =>
    obtain ⟨q, hq, h⟩ := Option.bind_eq_some_iff.mp h
    obtain ⟨r, hr, rfl⟩ := Option.map_eq_some_iff.mp h
    obtain ⟨hguar, hrest⟩ := (hc.others q (List.mem_of_getElem? hq)).step hr
    exact ⟨hguar, hc.task, List.forall_mem_set hc.others hrest⟩
  | otherFails n e =>
    obtain ⟨q, hq, h⟩ := Option.bind_eq_some_iff.mp h
    obtain ⟨q₁, hfail, rfl⟩ := Option.map_eq_some_iff.mp h
    have hrest : q₁.Guarantees guar := (hc.others q (List.mem_of_getElem? hq)).fail hfail
    exact ⟨hrefl c.state, hc.task, List.forall_mem_set hc.others hrest⟩

/-- What every step guarantees relates each moment of a run to every later one. -/
theorem Guards.run (hrefl : ∀ s, guar s s)
    (htrans : ∀ s s' s'', guar s s' → guar s' s'' → guar s s'')
    (hstart : ∀ i, (start i).Guarantees guar) {turns : List (Turn ε ι)} (hc : c.Guards guar)
    (h : Machine.run (Company.step start) c turns = some c') :
    guar c.state c'.state ∧ c'.Guards guar := by
  induction turns generalizing c with
  | nil =>
    obtain rfl := Option.some.inj h
    exact ⟨hrefl c.state, hc⟩
  | cons turn turns ih =>
    obtain ⟨c₁, hstep, hrest⟩ := Machine.run_cons_eq_some.mp h
    obtain ⟨hguar, hc₁⟩ := hc.step hrefl hstart hstep
    obtain ⟨hguar', hc'⟩ := ih hc₁ hrest
    exact ⟨htrans _ _ _ hguar hguar', hc'⟩

end Company
