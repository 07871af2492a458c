import Mathlib.Data.Nat.Notation
import Mathlib.Logic.Basic

/-!
# Tasks that share a state through atomic steps

A `Prog σ ε α` is a task that reads and writes a shared state `σ` in atomic steps and ends with a
value or an exception. Any step may also fail from outside (a lost connection, a full disk, a value
the database has no room for): the state stays as it is and the task goes on with the exception.

One task on its own is `Prog.run` when nothing fails and `Prog.runUnder` when it is given which
steps fail; tasks that take turns are `Interleaves`.

`Prog.Safe inv post p` says that every atomic step of `p` keeps `inv`, whatever `inv`-states the
other tasks leave behind between two steps, and that a value it ends with satisfies `post`. It is
proved step by step along the program (`Safe.bind`, `Safe.tryCatch`, `Safe.tx`), and then holds
of every interleaving (`Interleaves.safe`) and of every run (`Safe.run`).
-/

/-- A task over the shared state `σ`. -/
inductive Prog (σ ε α : Type) where
  | ret (a : α)
  | raise (e : ε)
  /-- Update the state, then go on with what was read before the update; or fail with an
  exception from outside, and go on with that. -/
  | atomic (upd : σ → σ) (next : Except ε σ → Prog σ ε α)

namespace Prog

variable {σ ε α β : Type}

/-- Sequencing. An exception skips the rest. -/
protected def bind : Prog σ ε α → (α → Prog σ ε β) → Prog σ ε β
  | ret a, f => f a
  | raise e, _ => raise e
  | atomic upd next, f => atomic upd fun r => (next r).bind f

/-- `try p except e: handler e`. -/
protected def tryCatch : Prog σ ε α → (ε → Prog σ ε α) → Prog σ ε α
  | ret a, _ => ret a
  | raise e, handler => handler e
  | atomic upd next, handler => atomic upd fun r => (next r).tryCatch handler

instance : Monad (Prog σ ε) where
  pure := ret
  bind := Prog.bind

instance : LawfulMonad (Prog σ ε) := LawfulMonad.mk' _
  (fun p => by
    show p.bind (fun a => ret a) = p
    induction p with
    | ret a => rfl
    | raise e => rfl
    | atomic upd next ih => exact congrArg (atomic upd) (funext ih))
  (fun _ _ => rfl)
  (fun p f g => by
    show (p.bind f).bind g = p.bind fun a => (f a).bind g
    induction p with
    | ret a => rfl
    | raise e => rfl
    | atomic upd next ih => exact congrArg (atomic upd) (funext ih))

instance : MonadExceptOf ε (Prog σ ε) where
  throw := raise
  tryCatch := Prog.tryCatch

/-- One transaction. When it raises, the state is as it was. -/
def tx (f : σ → Except ε (α × σ)) : Prog σ ε α :=
  atomic
    (fun s => match f s with
      | .ok (_, s') => s'
      | .error _ => s)
    (fun
      | .ok s => match f s with
        | .ok (a, _) => ret a
        | .error e => raise e
      | .error e => raise e)

/-- A transaction that only reads. -/
def read (f : σ → α) : Prog σ ε α := tx fun s => .ok (f s, s)

/-- The value of a call, or the exception it raised. -/
def ofExcept : Except ε α → Prog σ ε α
  | .ok a => ret a
  | .error e => raise e

/-- A call that is no transaction: where it raises, the state may have changed. -/
def call (f : σ → Except ε α × σ) : Prog σ ε α := tx (fun s => .ok (f s)) >>= ofExcept

/-- A task on a part of a state. -/
def zoom {τ : Type} (get : τ → σ) (set : τ → σ → τ) : Prog σ ε α → Prog τ ε α
  | ret a => ret a
  | raise e => raise e
  | atomic upd next =>
    atomic (fun t => set t (upd (get t))) fun r => (next (r.map get)).zoom get set

/-- The next atomic step, when the task is not over: what is left of the task, and the state. -/
def step : Prog σ ε α → σ → Option (Prog σ ε α × σ)
  | atomic upd next, s => some (next (.ok s), upd s)
  | _, _ => none

/-- What is left of the task when its next step fails with `e`. -/
def fail : Prog σ ε α → ε → Option (Prog σ ε α)
  | atomic _ next, e => some (next (.error e))
  | _, _ => none

/-- The task without interruption. -/
def run : Prog σ ε α → σ → Except ε α × σ
  | ret a, s => (.ok a, s)
  | raise e, s => (.error e, s)
  | atomic upd next, s => (next (.ok s)).run (upd s)

/-- The task without interruption, when `refuses n s s'` is what the `n`-th step raises that
would turn `s` into `s'`, if it fails: the result, the number of the next step, and the state. -/
def runUnder (refuses : ℕ → σ → σ → Option ε) : Prog σ ε α → ℕ → σ → Except ε α × ℕ × σ
  | ret a, n, s => (.ok a, n, s)
  | raise e, n, s => (.error e, n, s)
  | atomic upd next, n, s =>
    match refuses n s (upd s) with
    | none => (next (.ok s)).runUnder refuses (n + 1) (upd s)
    | some e => (next (.error e)).runUnder refuses (n + 1) s

/-- The next atomic step when `refuses s s'` is what a step raises that would turn `s` into `s'`, if
it fails. -/
def stepUnder (refuses : σ → σ → Option ε) : Prog σ ε α → σ → Option (Prog σ ε α × σ)
  | atomic upd next, s =>
    match refuses s (upd s) with
    | none => some (next (.ok s), upd s)
    | some e => some (next (.error e), s)
  | _, _ => none

/-- No step of the task fails. -/
def Unrefused (refuses : ℕ → σ → σ → Option ε) : Prog σ ε α → ℕ → σ → Prop
  | atomic upd next, n, s =>
    refuses n s (upd s) = none ∧ (next (.ok s)).Unrefused refuses (n + 1) (upd s)
  | _, _, _ => True

/-- The task catches no failure from outside. -/
def Uncaught : Prog σ ε α → Prop
  | atomic _ next => (∀ e, next (.error e) = raise e) ∧ ∀ s, (next (.ok s)).Uncaught
  | _ => True

/-- What the task has returned. -/
def value? : Prog σ ε α → Option α
  | ret a => some a
  | _ => none

/-- A program that has returned is a value. -/
theorem value?_eq_some_iff {p : Prog σ ε α} {a : α} : p.value? = some a ↔ p = ret a := by
  cases p <;> simp [value?]

/-- The task without its value. -/
def discard (p : Prog σ ε α) : Prog σ ε Unit := p >>= fun _ => pure ()

/-! ### Tasks on a part of a state -/

section Zoom

variable {τ : Type} {get : τ → σ} {set : τ → σ → τ}

/-- Zooming goes through sequencing. -/
theorem zoom_bind (p : Prog σ ε α) (f : α → Prog σ ε β) :
    (p >>= f).zoom get set = p.zoom get set >>= fun a => (f a).zoom get set := by
  show (p.bind f).zoom get set = (p.zoom get set).bind fun a => (f a).zoom get set
  induction p with
  | ret a => rfl
  | raise e => rfl
  | atomic upd next ih => exact congrArg (atomic _) (funext fun r => ih (r.map get))

/-- Zooming goes through exception handling. -/
theorem zoom_tryCatch (p : Prog σ ε α) (handler : ε → Prog σ ε α) :
    (tryCatch p handler).zoom get set =
      tryCatch (p.zoom get set) fun e => (handler e).zoom get set := by
  show (p.tryCatch handler).zoom get set =
    (p.zoom get set).tryCatch fun e => (handler e).zoom get set
  induction p with
  | ret a => rfl
  | raise e => rfl
  | atomic upd next ih => exact congrArg (atomic _) (funext fun r => ih (r.map get))

/-- The next step is taken on the part. -/
theorem step_zoom (p : Prog σ ε α) (t : τ) :
    (p.zoom get set).step t = (p.step (get t)).map fun r => (r.1.zoom get set, set t r.2) := by
  cases p <;> rfl

/-- Seen through `get`, the task does what the other does. -/
def Erases (get : τ → σ) : Prog τ ε α → Prog σ ε α → Prop
  | ret a, ret b => a = b
  | raise e, raise e' => e = e'
  | atomic upd next, atomic upd' next' =>
    (∀ t, get (upd t) = upd' (get t) ∧ (next (.ok t)).Erases get (next' (.ok (get t)))) ∧
      ∀ e, (next (.error e)).Erases get (next' (.error e))
  | _, _ => False

/-- A program that is zoomed out erases to itself. -/
theorem Erases.zoom (hget : ∀ t s, get (set t s) = s) (p : Prog σ ε α) :
    (p.zoom get set).Erases get p := by
  induction p with
  | ret a => rfl
  | raise e => rfl
  | atomic upd next ih => exact ⟨fun t => ⟨hget t _, ih _⟩, fun e => ih _⟩

/-- Erasing goes through sequencing. -/
theorem Erases.bind {p : Prog τ ε α} {q : Prog σ ε α} {f : α → Prog τ ε β} {g : α → Prog σ ε β}
    (hp : p.Erases get q) (hf : ∀ a, (f a).Erases get (g a)) :
    (p >>= f).Erases get (q >>= g) := by
  show (p.bind f).Erases get (q.bind g)
  -- the two programs have the same shape, step by step
  induction p generalizing q with
  | ret a =>
    cases q with
    | ret b =>
      cases hp
      exact hf a
    | _ => cases hp
  | raise e =>
    cases q with
    | raise e' => exact hp
    | _ => cases hp
  | atomic upd next ih =>
    cases q with
    | atomic upd' next' =>
      exact ⟨fun t => ⟨(hp.1 t).1, ih _ (hp.1 t).2⟩, fun e => ih _ (hp.2 e)⟩
    | _ => cases hp

/-- A transaction that does what the other does on its part. -/
theorem Erases.tx {f : τ → Except ε (α × τ)} {g : σ → Except ε (α × σ)}
    (h : ∀ t, g (get t) = (f t).map fun r => (r.1, get r.2)) :
    (Prog.tx f).Erases get (Prog.tx g) := by
  refine ⟨fun t => ?_, fun e => rfl⟩
  simp only [h t]
  cases f t with
  | error e => exact ⟨rfl, rfl⟩
  | ok r => exact ⟨rfl, rfl⟩

/-- A call that does what the other does on its part. -/
theorem Erases.call {f : τ → Except ε α × τ} {g : σ → Except ε α × σ}
    (h : ∀ t, g (get t) = ((f t).1, get (f t).2)) :
    (Prog.call f).Erases get (Prog.call g) := by
  refine (Erases.tx fun t => ?_).bind fun outcome => ?_
  · rw [h]
    rfl
  · cases outcome <;> rfl

end Zoom

/-! ### Running one task -/

/-- The second program runs on the store that the first one leaves, unless that raises. -/
theorem run_bind (p : Prog σ ε α) (f : α → Prog σ ε β) (s : σ) :
    (p >>= f).run s =
      match p.run s with
      | (.ok a, s') => (f a).run s'
      | (.error e, s') => (.error e, s') := by
  show (p.bind f).run s = _
  induction p generalizing s with
  | ret a => rfl
  | raise e => rfl
  | atomic upd next ih => exact ih _ (upd s)

/-- A step that succeeds hands its value and its state on. -/
theorem run_bind_ok {p : Prog σ ε α} {f : α → Prog σ ε β} {s s' : σ} {a : α}
    (h : p.run s = (.ok a, s')) : (p >>= f).run s = (f a).run s' := by
  rw [run_bind, h]

/-- A step that raises ends the run. -/
theorem run_bind_error {p : Prog σ ε α} {f : α → Prog σ ε β} {s s' : σ} {e : ε}
    (h : p.run s = (.error e, s')) : (p >>= f).run s = (.error e, s') := by
  rw [run_bind, h]

/-- The handler runs on the store that the exception leaves. -/
theorem run_tryCatch (p : Prog σ ε α) (handler : ε → Prog σ ε α) (s : σ) :
    (tryCatch p handler).run s =
      match p.run s with
      | (.ok a, s') => (.ok a, s')
      | (.error e, s') => (handler e).run s' := by
  show (p.tryCatch handler).run s = _
  induction p generalizing s with
  | ret a => rfl
  | raise e => rfl
  | atomic upd next ih => exact ih _ (upd s)

/-- The handler of a task that raises nothing is not run. -/
theorem run_tryCatch_ok {p : Prog σ ε α} {handler : ε → Prog σ ε α} {s s' : σ} {a : α}
    (h : p.run s = (.ok a, s')) : (tryCatch p handler).run s = (.ok a, s') := by
  rw [run_tryCatch, h]

/-- A transaction that succeeds writes. -/
theorem run_tx_ok {f : σ → Except ε (α × σ)} {s s' : σ} {a : α} (h : f s = .ok (a, s')) :
    (tx f).run s = (.ok a, s') := by
  simp only [tx, run, h]

/-- A transaction that raises leaves the store. -/
theorem run_tx_error {f : σ → Except ε (α × σ)} {s : σ} {e : ε} (h : f s = .error e) :
    (tx f).run s = (.error e, s) := by
  simp only [tx, run, h]

@[simp]
theorem run_read (f : σ → α) (s : σ) : (read f : Prog σ ε α).run s = (.ok (f s), s) := rfl

/-- A call that is not a transaction may write and raise. -/
@[simp]
theorem run_call (f : σ → Except ε α × σ) (s : σ) : (call f).run s = f s := by
  rw [call, run_bind_ok (run_tx_ok rfl)]
  obtain ⟨outcome, s'⟩ := f s
  cases outcome <;> rfl

/-! ### Running one task while steps fail -/

variable {refuses : ℕ → σ → σ → Option ε}

/-- Under failures, the count goes on through sequencing. -/
theorem runUnder_bind (p : Prog σ ε α) (f : α → Prog σ ε β) (n : ℕ) (s : σ) :
    (p >>= f).runUnder refuses n s =
      match p.runUnder refuses n s with
      | (.ok a, n', s') => (f a).runUnder refuses n' s'
      | (.error e, n', s') => (.error e, n', s') := by
  show (p.bind f).runUnder refuses n s = _
  induction p generalizing n s with
  | ret a => rfl
  | raise e => rfl
  | atomic upd next ih =>
    rw [Prog.bind, runUnder, runUnder]
    cases refuses n s (upd s) with
    | none => exact ih _ (n + 1) (upd s)
    | some e => exact ih _ (n + 1) s

/-- A step that succeeds hands its value and its state on. -/
theorem runUnder_bind_ok {p : Prog σ ε α} {f : α → Prog σ ε β} {n n' : ℕ} {s s' : σ} {a : α}
    (h : p.runUnder refuses n s = (.ok a, n', s')) :
    (p >>= f).runUnder refuses n s = (f a).runUnder refuses n' s' := by
  rw [runUnder_bind, h]

/-- A step that raises ends the run. -/
theorem runUnder_bind_error {p : Prog σ ε α} {f : α → Prog σ ε β} {n n' : ℕ} {s s' : σ} {e : ε}
    (h : p.runUnder refuses n s = (.error e, n', s')) :
    (p >>= f).runUnder refuses n s = (.error e, n', s') := by
  rw [runUnder_bind, h]

/-- A transaction that is not refused. -/
theorem runUnder_tx_ok {f : σ → Except ε (α × σ)} {n : ℕ} {s s' : σ} {a : α}
    (h : f s = .ok (a, s')) (hrefuses : refuses n s s' = none) :
    (tx f).runUnder refuses n s = (.ok a, n + 1, s') := by
  simp only [tx, runUnder, h, hrefuses]

/-- A transaction that is refused changes nothing. -/
theorem runUnder_tx_refused {f : σ → Except ε (α × σ)} {n : ℕ} {s s' : σ} {a : α} {e : ε}
    (h : f s = .ok (a, s')) (hrefuses : refuses n s s' = some e) :
    (tx f).runUnder refuses n s = (.error e, n + 1, s) := by
  simp only [tx, runUnder, h, hrefuses]

/-- A transaction that raises changes nothing, and may fail in another way before it does. -/
theorem runUnder_tx_error {f : σ → Except ε (α × σ)} {n : ℕ} {s : σ} {e : ε}
    (h : f s = .error e) :
    (tx f).runUnder refuses n s = (.error ((refuses n s s).getD e), n + 1, s) := by
  simp only [tx, runUnder, h]
  cases refuses n s s <;> rfl

variable (refuses) in
/-- A transaction commits, or it raises and changes nothing. -/
theorem runUnder_tx_cases (f : σ → Except ε (α × σ)) (n : ℕ) (s : σ) :
    (∃ a s', f s = .ok (a, s') ∧ refuses n s s' = none ∧
      (tx f).runUnder refuses n s = (.ok a, n + 1, s')) ∨
    ∃ e, (tx f).runUnder refuses n s = (.error e, n + 1, s) := by
  cases hf : f s with
  | error e => exact .inr ⟨_, runUnder_tx_error hf⟩
  | ok r =>
    cases hrefuses : refuses n s r.2 with
    | none => exact .inl ⟨r.1, r.2, rfl, hrefuses, runUnder_tx_ok hf hrefuses⟩
    | some e => exact .inr ⟨e, runUnder_tx_refused hf hrefuses⟩

/-- A query that is not refused. -/
theorem runUnder_read {n : ℕ} {s : σ} (h : refuses n s s = none) (f : σ → α) :
    (read f : Prog σ ε α).runUnder refuses n s = (.ok (f s), n + 1, s) :=
  runUnder_tx_ok rfl h

variable (refuses) in
/-- A query gives what it reads, or it fails. -/
theorem runUnder_read_cases (f : σ → α) (n : ℕ) (s : σ) :
    (refuses n s s = none ∧
      (read f : Prog σ ε α).runUnder refuses n s = (.ok (f s), n + 1, s)) ∨
    ∃ e, (read f : Prog σ ε α).runUnder refuses n s = (.error e, n + 1, s) := by
  cases hrefuses : refuses n s s with
  | none => exact .inl ⟨rfl, runUnder_read hrefuses f⟩
  | some e => exact .inr ⟨e, runUnder_tx_refused rfl hrefuses⟩

/-- A call that is not refused. -/
theorem runUnder_call {n : ℕ} {s : σ} {f : σ → Except ε α × σ}
    (h : refuses n s (f s).2 = none) :
    (call f).runUnder refuses n s = ((f s).1, n + 1, (f s).2) := by
  rw [call, runUnder_bind_ok (runUnder_tx_ok rfl h)]
  cases (f s).1 <;> rfl

variable (refuses) in
/-- A call is made, or it is refused and changes nothing. -/
theorem runUnder_call_cases (f : σ → Except ε α × σ) (n : ℕ) (s : σ) :
    (refuses n s (f s).2 = none ∧
      (call f).runUnder refuses n s = ((f s).1, n + 1, (f s).2)) ∨
    ∃ e, (call f).runUnder refuses n s = (.error e, n + 1, s) := by
  cases hrefuses : refuses n s (f s).2 with
  | none => exact .inl ⟨rfl, runUnder_call hrefuses⟩
  | some e => exact .inr ⟨e, runUnder_bind_error (runUnder_tx_refused rfl hrefuses)⟩

/-- A task of which no step fails. -/
theorem runUnder_eq_run {p : Prog σ ε α} {n : ℕ} {s : σ} (h : p.Unrefused refuses n s) :
    ∃ n', p.runUnder refuses n s = ((p.run s).1, n', (p.run s).2) := by
  induction p generalizing n s with
  | ret a => exact ⟨n, rfl⟩
  | raise e => exact ⟨n, rfl⟩
  | atomic upd next ih =>
    obtain ⟨n', hn'⟩ := ih _ h.2
    refine ⟨n', ?_⟩
    rw [runUnder, h.1, run]
    exact hn'

/-- When nothing ever fails, no step fails. -/
theorem unrefused_never (p : Prog σ ε α) (n : ℕ) (s : σ) :
    p.Unrefused (fun _ _ _ => none) n s := by
  induction p generalizing n s with
  | ret a => trivial
  | raise e => trivial
  | atomic upd next ih => exact ⟨rfl, ih _ _ _⟩

/-- Programs that catch nothing catch nothing in sequence. -/
theorem Uncaught.bind {p : Prog σ ε α} {f : α → Prog σ ε β} (hp : p.Uncaught)
    (hf : ∀ a, (f a).Uncaught) : (p >>= f).Uncaught := by
  show (p.bind f).Uncaught
  induction p with
  | ret a => exact hf a
  | raise e => trivial
  | atomic upd next ih =>
    refine ⟨fun e => ?_, fun s => ih _ (hp.2 s)⟩
    show (next (.error e)).bind f = raise e
    rw [hp.1 e]
    rfl

/-- A transaction catches nothing. -/
theorem uncaught_tx (f : σ → Except ε (α × σ)) : (tx f).Uncaught := by
  refine ⟨fun e => rfl, fun s => ?_⟩
  show (match f s with
    | .ok (a, _) => ret a
    | .error e => raise e : Prog σ ε α).Uncaught
  cases f s <;> trivial

theorem uncaught_read (f : σ → α) : (read f : Prog σ ε α).Uncaught := uncaught_tx _

theorem uncaught_call (f : σ → Except ε α × σ) : (call f).Uncaught := by
  refine (uncaught_tx _).bind fun outcome => ?_
  cases outcome <;> trivial

/-- A task that catches nothing returns only when no step fails. -/
theorem Uncaught.unrefused {p : Prog σ ε α} (hp : p.Uncaught) {n n' : ℕ} {s s' : σ} {a : α}
    (h : p.runUnder refuses n s = (.ok a, n', s')) : p.Unrefused refuses n s := by
  induction p generalizing n s with
  | ret b => trivial
  | raise e => trivial
  | atomic upd next ih =>
    rw [runUnder] at h
    cases hrefuses : refuses n s (upd s) with
    | none =>
      rw [hrefuses] at h
      exact ⟨hrefuses, ih _ (hp.2 s) h⟩
    | some e =>
      -- the exception goes through to the end
      rw [hrefuses] at h
      simp only [hp.1 e] at h
      cases h

/-- What a task that catches nothing returns while steps may fail it returns when none does. -/
theorem Uncaught.run_of_runUnder {p : Prog σ ε α} (hp : p.Uncaught) {n n' : ℕ} {s s' : σ} {a : α}
    (h : p.runUnder refuses n s = (.ok a, n', s')) : p.run s = (.ok a, s') := by
  obtain ⟨n'', hrun⟩ := runUnder_eq_run (hp.unrefused h)
  obtain ⟨hvalue, hrest⟩ := Prod.mk.inj (h.symm.trans hrun)
  exact (Prod.ext hvalue (Prod.mk.inj hrest).2).symm

/-! ### The next step -/

/-- A task that starts with a transaction commits it or raises. -/
theorem step_tx_bind (f : σ → Except ε (α × σ)) (g : α → Prog σ ε β) (s : σ) :
    (tx f >>= g).step s =
      some (match f s with
        | .ok (a, s') => (g a, s')
        | .error e => (throw e, s)) := by
  show some ((match f s with
      | .ok (a, _) => ret a
      | .error e => raise e : Prog σ ε α).bind g,
    match f s with
      | .ok (_, s') => s'
      | .error _ => s) = _
  cases f s <;> rfl

/-- A task that starts with a call. -/
theorem step_call_bind (f : σ → Except ε α × σ) (g : α → Prog σ ε β) (s : σ) :
    (call f >>= g).step s =
      some (match f s with
        | (.ok a, s') => (g a, s')
        | (.error e, s') => (throw e, s')) := by
  rw [call, bind_assoc, step_tx_bind]
  obtain ⟨outcome, s'⟩ := f s
  cases outcome <;> rfl

@[simp]
theorem step_read_bind (f : σ → α) (g : α → Prog σ ε β) (s : σ) :
    (read f >>= g).step s = some (g (f s), s) := rfl

/-- A task that catches nothing takes its next step, or raises what it is refused with. -/
theorem Uncaught.stepUnder_eq {p : Prog σ ε α} (hp : p.Uncaught) (refuses : σ → σ → Option ε)
    (s : σ) :
    p.stepUnder refuses s = (p.step s).map fun next =>
      match refuses s next.2 with
      | none => next
      | some e => (throw e, s) := by
  cases p with
  | ret a => rfl
  | raise e => rfl
  | atomic upd next =>
    rw [stepUnder, step, Option.map_some]
    cases refuses s (upd s) with
    | none => rfl
    | some e => exact congrArg (fun q => some (q, s)) (hp.1 e)

/-! ### Safety -/

/-- Every atomic step keeps `inv`, and the value at the end satisfies `post`. -/
def Safe (inv : σ → Prop) (post : α → Prop) : Prog σ ε α → Prop
  | ret a => post a
  | raise _ => True
  | atomic upd next =>
    (∀ s, inv s → inv (upd s) ∧ (next (.ok s)).Safe inv post) ∧
      ∀ e, (next (.error e)).Safe inv post

variable {inv : σ → Prop} {post : α → Prop}

/-- What a safe program returns may be described more weakly. -/
theorem Safe.mono {post' : α → Prop} {p : Prog σ ε α} (hp : p.Safe inv post)
    (h : ∀ a, post a → post' a) : p.Safe inv post' := by
  induction p with
  | ret a => exact h a hp
  | raise e => trivial
  | atomic upd next ih =>
    exact ⟨fun s hs => ⟨(hp.1 s hs).1, ih _ (hp.1 s hs).2⟩, fun e => ih _ (hp.2 e)⟩

theorem Safe.pure {a : α} (h : post a) : (pure a : Prog σ ε α).Safe inv post := h

/-- Raising is safe. -/
theorem Safe.throw (e : ε) : (throw e : Prog σ ε α).Safe inv post := trivial

/-- Safe programs are safe in sequence. -/
theorem Safe.bind {p : Prog σ ε α} {f : α → Prog σ ε β} {post' : β → Prop}
    (hp : p.Safe inv post) (hf : ∀ a, post a → (f a).Safe inv post') :
    (p >>= f).Safe inv post' := by
  show (p.bind f).Safe inv post'
  induction p with
  | ret a => exact hf a hp
  | raise e => trivial
  | atomic upd next ih =>
    exact ⟨fun s hs => ⟨(hp.1 s hs).1, ih _ (hp.1 s hs).2⟩, fun e => ih _ (hp.2 e)⟩

/-- A safe handler keeps a program safe, whatever is raised. -/
theorem Safe.tryCatch {p : Prog σ ε α} {handler : ε → Prog σ ε α} (hp : p.Safe inv post)
    (hh : ∀ e, (handler e).Safe inv post) : (tryCatch p handler).Safe inv post := by
  show (p.tryCatch handler).Safe inv post
  induction p with
  | ret a => exact hp
  | raise e => exact hh e
  | atomic upd next ih =>
    exact ⟨fun s hs => ⟨(hp.1 s hs).1, ih _ (hp.1 s hs).2⟩, fun e => ih _ (hp.2 e)⟩

/-- A safe program is safe when its result is dropped. -/
theorem Safe.discard {p : Prog σ ε α} (hp : p.Safe inv post) :
    p.discard.Safe inv fun _ => True :=
  hp.bind fun _ _ => Safe.pure trivial

/-- A transaction is safe when committing it keeps the invariant. -/
theorem Safe.tx {f : σ → Except ε (α × σ)}
    (h : ∀ s a s', inv s → f s = .ok (a, s') → inv s' ∧ post a) : (tx f).Safe inv post := by
  refine ⟨fun s hs => ?_, fun e => trivial⟩
  cases hf : f s with
  | ok r =>
    simp only [hf, Safe]
    exact h s r.1 r.2 hs hf
  | error e =>
    -- rolled back: the state is the one before
    simp only [hf, Safe]
    exact ⟨hs, trivial⟩

/-- A read is safe when what it reads is as described. -/
theorem Safe.read {f : σ → α} (h : ∀ s, inv s → post (f s)) :
    (read f : Prog σ ε α).Safe inv post := by
  refine Safe.tx fun s a s' hs hf => ?_
  simp only [Except.ok.injEq, Prod.mk.injEq] at hf
  obtain ⟨rfl, rfl⟩ := hf
  exact ⟨hs, h s hs⟩

/-- A call is safe when it keeps the invariant, also where it raises. -/
theorem Safe.call {f : σ → Except ε α × σ} (hinv : ∀ s, inv s → inv (f s).2)
    (hpost : ∀ s a s', inv s → f s = (.ok a, s') → post a) : (Prog.call f).Safe inv post := by
  refine (@Safe.tx σ ε (Except ε α) inv (fun outcome => ∀ a, outcome = .ok a → post a) _
    fun s outcome s' hs hf => ?_).bind fun outcome houtcome => ?_
  · have heq : f s = (outcome, s') := Except.ok.inj hf
    refine ⟨?_, fun a ha => hpost s a s' hs (ha ▸ heq)⟩
    have hkept := hinv s hs
    rwa [heq] at hkept
  · cases outcome with
    | ok a => exact houtcome a rfl
    | error e => trivial

/-- A transaction and what follows it. -/
theorem Safe.tx_bind {f : σ → Except ε (α × σ)} {g : α → Prog σ ε β} {post' : β → Prop}
    (h : ∀ s a s', inv s → f s = .ok (a, s') → inv s' ∧ (g a).Safe inv post') :
    (Prog.tx f >>= g).Safe inv post' :=
  (Safe.tx h).bind fun _ hg => hg

/-- A call and what follows it. -/
theorem Safe.call_bind {f : σ → Except ε α × σ} {g : α → Prog σ ε β} {post' : β → Prop}
    (hinv : ∀ s, inv s → inv (f s).2)
    (h : ∀ s a s', inv s → f s = (.ok a, s') → (g a).Safe inv post') :
    (Prog.call f >>= g).Safe inv post' :=
  (Safe.call hinv h).bind fun _ hg => hg

/-- A query and what follows it. -/
theorem Safe.read_bind {f : σ → α} {g : α → Prog σ ε β} {post' : β → Prop}
    (h : ∀ s, inv s → (g (f s)).Safe inv post') : (Prog.read f >>= g).Safe inv post' :=
  (Safe.read h).bind fun _ hg => hg

/-- What a safe task does on its own. -/
theorem Safe.run {p : Prog σ ε α} (hp : p.Safe inv post) {s : σ} (hs : inv s) :
    inv (p.run s).2 ∧ ∀ a, (p.run s).1 = .ok a → post a := by
  induction p generalizing s with
  | ret a =>
    refine ⟨hs, fun a' ha' => ?_⟩
    cases ha'
    exact hp
  | raise e => exact ⟨hs, fun a ha => by cases ha⟩
  | atomic upd next ih => exact ih _ (hp.1 s hs).2 (hp.1 s hs).1

/-- The invariant of a safe task holds at its end, whichever of its steps fail. -/
theorem Safe.runUnder {p : Prog σ ε α} (hp : p.Safe inv post) {n : ℕ} {s : σ} (hs : inv s) :
    inv (p.runUnder refuses n s).2.2 := by
  induction p generalizing n s with
  | ret a => exact hs
  | raise e => exact hs
  | atomic upd next ih =>
    rw [Prog.runUnder]
    cases refuses n s (upd s) with
    | none => exact ih _ (hp.1 s hs).2 (hp.1 s hs).1
    | some e => exact ih _ (hp.2 e) hs

/-- The task ends with `a` when each of its steps is taken in a state that satisfies `inv`; other
tasks may change the state between two steps. -/
inductive Returns (inv : σ → Prop) : Prog σ ε α → α → Prop
  | ret {a : α} : Returns inv (ret a) a
  | atomic {upd : σ → σ} {next : Except ε σ → Prog σ ε α} {s : σ} {a : α} (hs : inv s)
      (h : Returns inv (next (.ok s)) a) : Returns inv (atomic upd next) a
  | fail {upd : σ → σ} {next : Except ε σ → Prog σ ε α} {a : α} (e : ε)
      (h : Returns inv (next (.error e)) a) : Returns inv (atomic upd next) a

/-- What a safe task ends with. -/
theorem Safe.of_returns {p : Prog σ ε α} {inv' : σ → Prop} {a : α} (hp : p.Safe inv post)
    (h : p.Returns inv' a) (hinv : ∀ s, inv' s → inv s) : post a := by
  induction h with
  | ret => exact hp
  | atomic hs _ ih => exact ih (hp.1 _ (hinv _ hs)).2
  | fail e _ ih => exact ih (hp.2 e)

end Prog

/-! ### Tasks that take turns -/

/-- Reached from an `init` state when tasks that satisfy `start` come in at any time and take
their atomic steps in any order, any of which may fail: the tasks under way and the state. -/
inductive Interleaves {σ ε : Type} (init : σ → Prop) (start : Prog σ ε Unit → Prop) :
    List (Prog σ ε Unit) → σ → Prop
  | init {s : σ} (hs : init s) : Interleaves init start [] s
  | spawn {tasks : List (Prog σ ε Unit)} {s : σ} {p : Prog σ ε Unit} (hp : start p)
      (h : Interleaves init start tasks s) : Interleaves init start (p :: tasks) s
  | step {pre rest : List (Prog σ ε Unit)} {upd : σ → σ} {next : Except ε σ → Prog σ ε Unit} {s : σ}
      (h : Interleaves init start (pre ++ .atomic upd next :: rest) s) :
      Interleaves init start (pre ++ next (.ok s) :: rest) (upd s)
  | fail {pre rest : List (Prog σ ε Unit)} {upd : σ → σ} {next : Except ε σ → Prog σ ε Unit} {s : σ}
      (e : ε) (h : Interleaves init start (pre ++ .atomic upd next :: rest) s) :
      Interleaves init start (pre ++ next (.error e) :: rest) s

namespace Interleaves

variable {σ ε : Type} {init inv : σ → Prop} {start : Prog σ ε Unit → Prop}
  {tasks : List (Prog σ ε Unit)} {s : σ}

/-- An invariant that every task keeps holds in every interleaving. -/
theorem safe (hinit : ∀ s, init s → inv s) (hstart : ∀ p, start p → p.Safe inv fun _ => True)
    (h : Interleaves init start tasks s) :
    inv s ∧ ∀ p ∈ tasks, p.Safe inv fun _ => True := by
  induction h with
  | init hs => exact ⟨hinit _ hs, by simp⟩
  | spawn hp _ ih =>
    refine ⟨ih.1, fun q hq => ?_⟩
    rcases List.mem_cons.mp hq with rfl | hq
    · exact hstart _ hp
    · exact ih.2 q hq
  | @step pre rest upd next s _ ih =>
    -- the task that moves was safe, and safety says what its step does to any `inv`-state
    obtain ⟨hupd, hnext⟩ := (ih.2 (.atomic upd next) (by simp)).1 s ih.1
    refine ⟨hupd, fun q hq => ?_⟩
    rcases List.mem_append.mp hq with hq | hq
    · exact ih.2 q (by simp [hq])
    · rcases List.mem_cons.mp hq with rfl | hq
      · exact hnext
      · exact ih.2 q (by simp [hq])
  | @fail pre rest upd next s e _ ih =>
    have hnext := (ih.2 (.atomic upd next) (by simp)).2 e
    refine ⟨ih.1, fun q hq => ?_⟩
    rcases List.mem_append.mp hq with hq | hq
    · exact ih.2 q (by simp [hq])
    · rcases List.mem_cons.mp hq with rfl | hq
      · exact hnext
      · exact ih.2 q (by simp [hq])

/-- A task that runs without interruption is one of the interleavings. -/
theorem run {p : Prog σ ε Unit} (h : Interleaves init start (p :: tasks) s) :
    ∃ p', Interleaves init start (p' :: tasks) (p.run s).2 := by
  induction p generalizing s with
  | ret a => exact ⟨_, h⟩
  | raise e => exact ⟨_, h⟩
  | atomic upd next ih =>
    have hstep := @Interleaves.step _ _ _ _ [] tasks upd next s h
    exact ih _ hstep

/-- What a task returns that runs without interruption. -/
theorem returns {α : Type} {p : Prog σ ε α} {a : α}
    (h : Interleaves init start (p.discard :: tasks) s) (hrun : (p.run s).1 = .ok a) :
    p.Returns (fun s => ∃ tasks, Interleaves init start tasks s) a := by
  induction p generalizing s with
  | ret b =>
    cases hrun
    exact .ret
  | raise e => cases hrun
  | atomic upd next ih =>
    -- the step is taken in `s`, a state of the interleaving; the rest runs on from there
    have hstep : Interleaves init start ((next (.ok s)).discard :: tasks) (upd s) :=
      @Interleaves.step _ _ _ _ [] tasks upd (fun r => (next r).discard) s h
    exact .atomic ⟨_, h⟩ (ih _ hstep hrun)

end Interleaves
