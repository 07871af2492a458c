import InfraReplay.Common.Prog
import Mathlib.Data.List.Nodup
import Mathlib.Data.Set.BooleanAlgebra
import Mathlib.Order.CompletePartialOrder
import Mathlib.Logic.Relation

/-!
# Tasks that own what they end

Things, named by keys, that are open until some task gives them a final status. Nothing in a task
checks the status before it sets it, so what keeps a final status final is that every open thing
has at most one owner: one of the tasks, or the shelf, where things wait for a task to take them.

A `Ledger` says what the state shows of all this. `Prog.Keeps L P E p T` says that the task
`p`, which owns the keys in `T`, opens, ends, shelves and takes things by the rules of the ledger
(`Ledger.Step`), whichever of its steps fail. It is proved along the program (`Keeps.bind`,
`Keeps.tryCatch`, `Keeps.tx`); and when every task keeps the rules, final statuses never change and
nothing is ended twice, whatever turns the tasks take (`Ledger.final_of_turns`, `Ledger.nodup_log`).
-/

/-! ### Turns -/

namespace Prog

variable {σ ε α β : Type}

/-- One turn of tasks that share a state: a task that satisfies `start` comes in, or a task takes
its next step, or that step fails. -/
inductive Turn (start : Prog σ ε Unit → Prop) :
    List (Prog σ ε Unit) × σ → List (Prog σ ε Unit) × σ → Prop
  | call {tasks : List (Prog σ ε Unit)} {s : σ} {p : Prog σ ε Unit} (hp : start p) :
      Turn start (tasks, s) (p :: tasks, s)
  | step (pre rest : List (Prog σ ε Unit)) (upd : σ → σ) (next : Except ε σ → Prog σ ε Unit)
      (s : σ) :
      Turn start (pre ++ .atomic upd next :: rest, s) (pre ++ next (.ok s) :: rest, upd s)
  | fail (pre rest : List (Prog σ ε Unit)) (upd : σ → σ) (next : Except ε σ → Prog σ ε Unit)
      (s : σ) (e : ε) :
      Turn start (pre ++ .atomic upd next :: rest, s) (pre ++ next (.error e) :: rest, s)

/-- Any number of turns. -/
abbrev Turns (start : Prog σ ε Unit → Prop) :
    List (Prog σ ε Unit) × σ → List (Prog σ ε Unit) × σ → Prop :=
  Relation.ReflTransGen (Turn start)

/-- Every atomic step of the task goes from a state to one that `R` allows. -/
def Always (R : σ → σ → Prop) : Prog σ ε α → Prop
  | atomic upd next =>
    (∀ s, R s (upd s) ∧ (next (.ok s)).Always R) ∧ ∀ e, (next (.error e)).Always R
  | _ => True

variable {R : σ → σ → Prop}

/-- What every step of two programs keeps, their sequence keeps. -/
theorem Always.bind {p : Prog σ ε α} {f : α → Prog σ ε β} (hp : p.Always R)
    (hf : ∀ a, (f a).Always R) : (p >>= f).Always R := by
  show (p.bind f).Always R
  induction p with
  | ret a => exact hf a
  | raise e => trivial
  | atomic upd next ih =>
    exact ⟨fun s => ⟨(hp.1 s).1, ih _ (hp.1 s).2⟩, fun e => ih _ (hp.2 e)⟩

/-- A transaction that changes only what `R` lets it change. -/
theorem Always.tx {f : σ → Except ε (α × σ)} (hrefl : ∀ s, R s s)
    (h : ∀ s a s', f s = .ok (a, s') → R s s') : (tx f).Always R := by
  refine ⟨fun s => ?_, fun e => trivial⟩
  cases hf : f s with
  | ok r =>
    simp only [hf]
    exact ⟨h s r.1 r.2 hf, trivial⟩
  | error e =>
    simp only [hf]
    exact ⟨hrefl s, trivial⟩

/-- A call that changes only what `R` lets it change, also where it raises. -/
theorem Always.call {f : σ → Except ε α × σ} (hrefl : ∀ s, R s s) (h : ∀ s, R s (f s).2) :
    (Prog.call f).Always R := by
  refine (Always.tx hrefl fun s outcome s' hf => ?_).bind fun outcome => ?_
  · have hcall := h s
    rwa [Except.ok.inj hf] at hcall
  · cases outcome <;> trivial

/-- A read keeps every reflexive relation. -/
theorem Always.read {f : σ → α} (hrefl : ∀ s, R s s) : (read f : Prog σ ε α).Always R := by
  refine Always.tx hrefl fun s a s' hs' => ?_
  cases hs'
  exact hrefl s

/-- Zooming out carries the relation along. -/
theorem Always.zoom {τ : Type} {get : τ → σ} {set : τ → σ → τ} {R' : τ → τ → Prop}
    {p : Prog σ ε α} (hp : p.Always R) (h : ∀ t s, R (get t) s → R' t (set t s)) :
    (p.zoom get set).Always R' := by
  induction p with
  | ret a => trivial
  | raise e => trivial
  | atomic upd next ih =>
    exact ⟨fun t => ⟨h t _ (hp.1 (get t)).1, ih _ (hp.1 (get t)).2⟩, fun e => ih _ (hp.2 e)⟩

/-- A task that takes its steps without interruption. -/
theorem Turns.run (start : Prog σ ε Unit → Prop) (p : Prog σ ε Unit)
    (tasks : List (Prog σ ε Unit)) (s : σ) :
    ∃ p', Turns start (p :: tasks, s) (p' :: tasks, (p.run s).2) := by
  induction p generalizing s with
  | ret a => exact ⟨_, .refl⟩
  | raise e => exact ⟨_, .refl⟩
  | atomic upd next ih =>
    obtain ⟨p', hrest⟩ := ih (.ok s) (upd s)
    exact ⟨p', .head (Turn.step [] tasks upd next s) hrest⟩

end Prog

/-! ### The ledger -/

/-- What a state shows of the things in it. -/
structure Ledger (σ κ ν : Type) where
  status : σ → κ → Option ν
  final : ν → Prop
  /-- The thing waits for a task to take it. -/
  shelved : σ → κ → Prop
  /-- The things that have been ended, in order. -/
  log : σ → List κ
  /-- What holds of every state besides. -/
  inv : σ → Prop

namespace Ledger

variable {σ κ ν ε α β : Type} (L : Ledger σ κ ν)

/-- The thing is there and not final. -/
def Open (s : σ) (k : κ) : Prop := ∃ v, L.status s k = some v ∧ ¬L.final v

/-- The thing is there and final. -/
def Final (s : σ) (k : κ) : Prop := ∃ v, L.status s k = some v ∧ L.final v

/-- A state in which a task may own the keys in `T`. -/
structure Fit (T : Set κ) (s : σ) : Prop where
  owned : ∀ k ∈ T, L.Open s k ∧ ¬L.shelved s k
  shelved : ∀ k, L.shelved s k → L.Open s k
  inv : L.inv s

/-- What a task that owns `T` may do in one step, after which it owns `T'`. It changes no status
but those of `T` and of things that were not there; it comes to own only what was not there or on
the shelf; it shelves only what it owned; and it logs at most one thing, which it owned and has
ended. -/
structure Step (T : Set κ) (s : σ) (T' : Set κ) (s' : σ) : Prop where
  status : ∀ k ∉ T, L.status s k ≠ none → L.status s' k = L.status s k
  owned : ∀ k ∈ T', L.Open s' k ∧ ¬L.shelved s' k ∧
    (k ∈ T ∨ L.shelved s k ∨ L.status s k = none)
  shelved : ∀ k, L.shelved s' k → L.Open s' k ∧ (L.shelved s k ∨ k ∈ T)
  log : L.log s' = L.log s ∨ ∃ k ∈ T, L.Final s' k ∧ L.log s' = L.log s ++ [k]
  inv : L.inv s'

/-- Nothing the ledger shows has changed. -/
structure Same (s s' : σ) : Prop where
  status : L.status s' = L.status s
  shelved : L.shelved s' = L.shelved s
  log : L.log s' = L.log s
  inv : L.inv s → L.inv s'

variable {L}

/-- A store is the same as itself. -/
theorem Same.refl (s : σ) : L.Same s s := ⟨rfl, rfl, rfl, fun h => h⟩

/-- What is final is not open. -/
theorem not_open_of_final {s : σ} {k : κ} (hfinal : L.Final s k) : ¬L.Open s k := by
  rintro ⟨v, hv, hnot⟩
  obtain ⟨v', hv', hfinal⟩ := hfinal
  rw [hv] at hv'
  exact hnot (Option.some.inj hv' ▸ hfinal)

/-- A step that changes nothing is within the rules. -/
theorem Same.step {T : Set κ} {s s' : σ} (h : L.Same s s') (hs : L.Fit T s) : L.Step T s T s' where
  status k _ _ := by rw [h.status]
  owned k hk := by
    obtain ⟨⟨v, hv, hopen⟩, hshelved⟩ := hs.owned k hk
    exact ⟨⟨v, by rw [h.status, hv], hopen⟩, by rw [h.shelved]; exact hshelved, .inl hk⟩
  shelved k hk := by
    rw [h.shelved] at hk
    obtain ⟨v, hv, hopen⟩ := hs.shelved k hk
    exact ⟨⟨v, by rw [h.status, hv], hopen⟩, .inl hk⟩
  log := .inl h.log
  inv := h.inv hs.inv

end Ledger

/-! ### Tasks that keep the rules -/

namespace Prog

variable {σ κ ν ε α β : Type} {L : Ledger σ κ ν} {T : Set κ}

/-- The task, which owns `T`, keeps the rules of the ledger. What it owns at its end satisfies
`P` together with its value, or `E` together with the exception. -/
def Keeps (L : Ledger σ κ ν) (P : α → Set κ → Prop) (E : ε → Set κ → Prop) :
    Prog σ ε α → Set κ → Prop
  | ret a, T => P a T
  | raise e, T => E e T
  | atomic upd next, T =>
    (∀ s, L.Fit T s → ∃ T', L.Step T s T' (upd s) ∧ (next (.ok s)).Keeps L P E T') ∧
      ∀ e, (next (.error e)).Keeps L P E T

variable {P : α → Set κ → Prop} {E : ε → Set κ → Prop}

/-- The second program begins with what the first one holds. -/
theorem Keeps.bind {p : Prog σ ε α} {f : α → Prog σ ε β} {P' : β → Set κ → Prop}
    (hp : p.Keeps L P E T) (hf : ∀ a T', P a T' → (f a).Keeps L P' E T') :
    (p >>= f).Keeps L P' E T := by
  show (p.bind f).Keeps L P' E T
  induction p generalizing T with
  | ret a => exact hf a T hp
  | raise e => exact hp
  | atomic upd next ih =>
    refine ⟨fun s hs => ?_, fun e => ih _ (hp.2 e)⟩
    obtain ⟨T', hstep, hnext⟩ := hp.1 s hs
    exact ⟨T', hstep, ih _ hnext⟩

/-- The handler begins with what was held at the exception. -/
theorem Keeps.tryCatch {p : Prog σ ε α} {handler : ε → Prog σ ε α}
    {E' : ε → Set κ → Prop} (hp : p.Keeps L P E T)
    (hh : ∀ e T', E e T' → (handler e).Keeps L P E' T') :
    (tryCatch p handler).Keeps L P E' T := by
  show (p.tryCatch handler).Keeps L P E' T
  induction p generalizing T with
  | ret a => exact hp
  | raise e => exact hh e T hp
  | atomic upd next ih =>
    refine ⟨fun s hs => ?_, fun e => ih _ (hp.2 e)⟩
    obtain ⟨T', hstep, hnext⟩ := hp.1 s hs
    exact ⟨T', hstep, ih _ hnext⟩

/-- What is held at the end may be described more weakly. -/
theorem Keeps.mono {p : Prog σ ε α} {P' : α → Set κ → Prop} {E' : ε → Set κ → Prop}
    (hp : p.Keeps L P E T) (hpost : ∀ a T', P a T' → P' a T')
    (hraised : ∀ e T', E e T' → E' e T') : p.Keeps L P' E' T := by
  induction p generalizing T with
  | ret a => exact hpost a T hp
  | raise e => exact hraised e T hp
  | atomic upd next ih =>
    refine ⟨fun s hs => ?_, fun e => ih _ (hp.2 e)⟩
    obtain ⟨T', hstep, hnext⟩ := hp.1 s hs
    exact ⟨T', hstep, ih _ hnext⟩

/-- A transaction keeps the rules when its commit does. -/
theorem Keeps.tx {f : σ → Except ε (α × σ)}
    (h : ∀ s a s', L.Fit T s → f s = .ok (a, s') → ∃ T', L.Step T s T' s' ∧ P a T')
    (hraised : ∀ e, E e T) : (Prog.tx f).Keeps L P E T := by
  refine ⟨fun s hs => ?_, hraised⟩
  cases hf : f s with
  | ok r =>
    obtain ⟨T', hstep, hpost⟩ := h s r.1 r.2 hs hf
    simp only [hf]
    exact ⟨T', hstep, hpost⟩
  | error e =>
    -- rolled back
    simp only [hf]
    exact ⟨T, (Ledger.Same.refl s).step hs, hraised e⟩

/-- A task that changes nothing the ledger shows keeps what it owns. -/
theorem Keeps.of_same {p : Prog σ ε α} (h : p.Always L.Same) (hpost : ∀ a, P a T)
    (hraised : ∀ e, E e T) : p.Keeps L P E T := by
  induction p with
  | ret a => exact hpost a
  | raise e => exact hraised e
  | atomic upd next ih =>
    exact ⟨fun s hs => ⟨T, (h.1 s).1.step hs, ih _ (h.1 s).2⟩, fun e => ih _ (h.2 e)⟩

end Prog

/-! ### Many tasks -/

namespace Ledger

variable {σ κ ν ε : Type} {L : Ledger σ κ ν} {start : Prog σ ε Unit → Prop}
  {c c' : List (Prog σ ε Unit) × σ}

/-- A task that keeps the rules to its end, with what it owns. -/
def Owns (L : Ledger σ κ ν) (x : Prog σ ε Unit × Set κ) : Prop :=
  x.1.Keeps L (fun _ _ => True) (fun _ _ => True) x.2

/-- The tasks can be given what they own: it is open, not on the shelf, and nothing has two owners;
and what is logged is final and logged once. -/
structure Held (L : Ledger σ κ ν) (c : List (Prog σ ε Unit) × σ) : Prop where
  owners : ∃ held : List (Prog σ ε Unit × Set κ), held.map Prod.fst = c.1 ∧
    (∀ x ∈ held, L.Owns x ∧ L.Fit x.2 c.2) ∧
    held.Pairwise fun x y => Disjoint x.2 y.2
  fit : L.Fit ∅ c.2
  logged : ∀ k ∈ L.log c.2, L.Final c.2 k
  nodup : (L.log c.2).Nodup

/-- What a task does not own stays as it is when it is there. -/
theorem Step.keeps_fit {T T' U : Set κ} {s s' : σ} (h : L.Step T s T' s') (hU : L.Fit U s)
    (hdisjoint : Disjoint T U) : L.Fit U s' where
  owned k hk := by
    obtain ⟨⟨v, hv, hopen⟩, hshelved⟩ := hU.owned k hk
    have hnot : k ∉ T := fun hT => Set.disjoint_left.mp hdisjoint hT hk
    refine ⟨⟨v, ?_, hopen⟩, fun hshelf => ?_⟩
    · rw [h.status k hnot (by rw [hv]; simp), hv]
    · exact (h.shelved k hshelf).2.elim hshelved hnot
  shelved k hk := (h.shelved k hk).1
  inv := h.inv

/-- What a task owns after a step, no other task owns. -/
theorem Step.disjoint {T T' U : Set κ} {s s' : σ} (h : L.Step T s T' s') (hU : L.Fit U s)
    (hdisjoint : Disjoint T U) : Disjoint T' U := by
  refine Set.disjoint_left.mpr fun k hk hkU => ?_
  obtain ⟨⟨v, hv, -⟩, hshelved⟩ := hU.owned k hkU
  rcases (h.owned k hk).2.2 with hT | hshelf | hnone
  · exact Set.disjoint_left.mp hdisjoint hT hkU
  · exact hshelved hshelf
  · rw [hv] at hnone
    cases hnone

/-- A step keeps final statuses. -/
theorem Step.final {T T' : Set κ} {s s' : σ} (h : L.Step T s T' s') (hs : L.Fit T s) {k : κ}
    (hk : L.Final s k) : L.status s' k = L.status s k := by
  have hthere : L.status s k ≠ none := by
    obtain ⟨v, hv, -⟩ := hk
    simp [hv]
  exact h.status k (fun hT => not_open_of_final hk (hs.owned k hT).1) hthere

/-- What a step means for what is logged: it is final and logged once. -/
theorem Step.logged {T T' : Set κ} {s s' : σ} (h : L.Step T s T' s') (hs : L.Fit T s)
    (hlogged : ∀ k ∈ L.log s, L.Final s k) (hnd : (L.log s).Nodup) :
    (∀ k ∈ L.log s', L.Final s' k) ∧ (L.log s').Nodup := by
  have hkept : ∀ k ∈ L.log s, L.Final s' k := by
    intro k hk
    obtain ⟨v, hv, hfinal⟩ := hlogged k hk
    exact ⟨v, by rw [h.final hs (hlogged k hk), hv], hfinal⟩
  rcases h.log with hlog | ⟨k, hk, hfinal, hlog⟩
  · rw [hlog]
    exact ⟨hkept, hnd⟩
  · rw [hlog]
    refine ⟨fun k' hk' => ?_, ?_⟩
    · rcases List.mem_append.mp hk' with hk' | hk'
      · exact hkept k' hk'
      · rw [List.mem_singleton.mp hk']
        exact hfinal
    · -- what is logged now was owned, so it was open and is not logged before
      rw [← List.concat_eq_append]
      refine List.Nodup.concat (fun hmem => ?_) hnd
      exact not_open_of_final (hlogged k hmem) (hs.owned k hk).1

section Turns

variable {pre rest tasks : List (Prog σ ε Unit)} {upd : σ → σ} {next : Except ε σ → Prog σ ε Unit}
  {s : σ}

/-- A task that comes in owns nothing. -/
theorem Held.call {p : Prog σ ε Unit} (hc : L.Held (tasks, s)) (hp : L.Owns (p, ∅)) :
    L.Held (p :: tasks, s) := by
  obtain ⟨held, hmap, hheld, hpairwise⟩ := hc.owners
  refine ⟨⟨(p, ∅) :: held, by rw [List.map_cons, hmap], fun x hx => ?_, ?_⟩, hc.fit, hc.logged,
    hc.nodup⟩
  · rcases List.mem_cons.mp hx with rfl | hx
    · exact ⟨hp, hc.fit⟩
    · exact hheld x hx
  · exact List.pairwise_cons.mpr ⟨fun x _ => Set.empty_disjoint x.2, hpairwise⟩

/-- A step of one task: it keeps what it may own, and what the others own stays as it is. -/
theorem Held.step (hc : L.Held (pre ++ .atomic upd next :: rest, s)) :
    L.Held (pre ++ next (.ok s) :: rest, upd s) ∧
      ∀ k, L.Final s k → L.status (upd s) k = L.status s k := by
  obtain ⟨held, hmap, hheld, hpairwise⟩ := hc.owners
  obtain ⟨hpre, held', rfl, rfl, hmap'⟩ := List.map_eq_append_iff.mp hmap
  obtain ⟨⟨p, T⟩, hrest, rfl, rfl, rfl⟩ := List.map_eq_cons_iff.mp hmap'
  obtain ⟨hpp, hmid, hcross⟩ := List.pairwise_append.mp hpairwise
  obtain ⟨hTr, hrr⟩ := List.pairwise_cons.mp hmid
  obtain ⟨howns, hfit⟩ := hheld (.atomic upd next, T) (by simp)
  obtain ⟨T', hstep, hnext⟩ := howns.1 s hfit
  -- what the other tasks own is not owned by the task that moves
  have hpT : ∀ x ∈ hpre, Disjoint T x.2 := fun x hx =>
    (hcross x hx (.atomic upd next, T) (by simp)).symm
  obtain ⟨hlogged, hnd⟩ := hstep.logged hfit hc.logged hc.nodup
  refine ⟨⟨⟨hpre ++ (next (.ok s), T') :: hrest, by simp, fun x hx => ?_, ?_⟩, ?_, hlogged, hnd⟩,
    fun k hk => hstep.final hfit hk⟩
  · rcases List.mem_append.mp hx with hx | hx
    · have hx' := hheld x (List.mem_append_left _ hx)
      exact ⟨hx'.1, hstep.keeps_fit hx'.2 (hpT x hx)⟩
    · rcases List.mem_cons.mp hx with rfl | hx
      · refine ⟨hnext, ⟨fun k hk => ?_, fun k hk => (hstep.shelved k hk).1, hstep.inv⟩⟩
        exact ⟨(hstep.owned k hk).1, (hstep.owned k hk).2.1⟩
      · have hx' := hheld x (by simp [hx])
        exact ⟨hx'.1, hstep.keeps_fit hx'.2 (hTr x hx)⟩
  · refine List.pairwise_append.mpr ⟨hpp, List.pairwise_cons.mpr ⟨fun x hx => ?_, hrr⟩, ?_⟩
    · exact hstep.disjoint (hheld x (by simp [hx])).2 (hTr x hx)
    · intro x hx y hy
      rcases List.mem_cons.mp hy with rfl | hy
      · exact (hstep.disjoint (hheld x (by simp [hx])).2 (hpT x hx)).symm
      · exact hcross x hx y (by simp [hy])
  · exact hstep.keeps_fit hc.fit (Set.disjoint_empty T)

/-- A failure changes nothing but the task, which still owns what it owned. -/
theorem Held.fail (hc : L.Held (pre ++ .atomic upd next :: rest, s)) (e : ε) :
    L.Held (pre ++ next (.error e) :: rest, s) := by
  obtain ⟨held, hmap, hheld, hpairwise⟩ := hc.owners
  obtain ⟨hpre, held', rfl, rfl, hmap'⟩ := List.map_eq_append_iff.mp hmap
  obtain ⟨⟨p, T⟩, hrest, rfl, rfl, rfl⟩ := List.map_eq_cons_iff.mp hmap'
  obtain ⟨howns, hfit⟩ := hheld (.atomic upd next, T) (by simp)
  refine ⟨⟨hpre ++ (next (.error e), T) :: hrest, by simp, fun x hx => ?_, ?_⟩, hc.fit,
    hc.logged, hc.nodup⟩
  · rcases List.mem_append.mp hx with hx | hx
    · exact hheld x (List.mem_append_left _ hx)
    · rcases List.mem_cons.mp hx with rfl | hx
      · exact ⟨howns.2 e, hfit⟩
      · exact hheld x (by simp [hx])
  · simp only [List.pairwise_append, List.pairwise_cons, List.mem_cons, forall_eq_or_imp]
      at hpairwise ⊢
    exact hpairwise

/-- A turn keeps the invariant, and no turn changes a final status. -/
theorem Held.turn (hc : L.Held c) (hstart : ∀ p, start p → L.Owns (p, ∅))
    (h : Prog.Turn start c c') :
    L.Held c' ∧ ∀ k, L.Final c.2 k → L.status c'.2 k = L.status c.2 k := by
  cases h with
  | call hp => exact ⟨hc.call (hstart _ hp), fun _ _ => rfl⟩
  | step pre rest upd next s => exact hc.step
  | fail pre rest upd next s e => exact ⟨hc.fail e, fun _ _ => rfl⟩

end Turns

/-- In every run of any number of tasks, each keeps its own, and what is final stays. -/
theorem Held.turns (hc : L.Held c) (hstart : ∀ p, start p → L.Owns (p, ∅))
    (h : Prog.Turns start c c') :
    L.Held c' ∧ ∀ k, L.Final c.2 k → L.status c'.2 k = L.status c.2 k := by
  induction h with
  | refl => exact ⟨hc, fun _ _ => rfl⟩
  | tail _ hturn ih =>
    obtain ⟨hheld, hkept⟩ := ih
    obtain ⟨hheld', hkept'⟩ := hheld.turn hstart hturn
    refine ⟨hheld', fun k hk => ?_⟩
    have hk' := hk
    obtain ⟨v, hv, hfinal⟩ := hk
    rw [hkept' k ⟨v, by rw [hkept k hk', hv], hfinal⟩, hkept k hk']

/-- Where no task has started, nothing is on the shelf and nothing is logged. -/
theorem held_nil (ε : Type) {s : σ} (hshelf : ∀ k, ¬L.shelved s k) (hlog : L.log s = [])
    (hinv : L.inv s) : L.Held (([] : List (Prog σ ε Unit)), s) where
  owners := ⟨[], rfl, by simp, .nil⟩
  fit := ⟨by simp, fun k hk => absurd hk (hshelf k), hinv⟩
  logged := by simp [hlog]
  nodup := by simp [hlog]

/-- **Final statuses are final.** When every task keeps the rules, a final status never changes. -/
theorem final_of_turns (hstart : ∀ p, start p → L.Owns (p, ∅)) {s : σ}
    (hs : L.Held (([] : List (Prog σ ε Unit)), s))
    (h : Prog.Turns start ([], s) c) (h' : Prog.Turns start c c') {k : κ} (hk : L.Final c.2 k) :
    L.status c'.2 k = L.status c.2 k :=
  ((hs.turns hstart h).1.turns hstart h').2 k hk

/-- **Nothing is ended twice.** When every task keeps the rules, no key is logged twice. -/
theorem nodup_log (hstart : ∀ p, start p → L.Owns (p, ∅)) {s : σ}
    (hs : L.Held (([] : List (Prog σ ε Unit)), s)) (h : Prog.Turns start ([], s) c) :
    (L.log c.2).Nodup :=
  (hs.turns hstart h).1.nodup

end Ledger
