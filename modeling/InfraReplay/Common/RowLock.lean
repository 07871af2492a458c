import Mathlib.Algebra.Group.Basic
import Mathlib.Data.Option.Basic

/-!
# Rows under row locks

A row of a table that transactions update at READ COMMITTED. A transaction that updates the row
holds its lock until it commits or rolls back; until then the others see what was committed before,
and an `UPDATE` of theirs that matches the row waits (`LockedRow.update` is `none`).

`LockedRow.Accounts` says by how much a transaction has changed an amount of the row. Every
operation keeps it, of the transaction itself and of the others, and a commit adds exactly that
change to what is committed: what is written relative to the row as it is, is never lost.
-/

/-- A row, and what the transaction that holds its lock has made of it. -/
structure LockedRow (τ ν : Type) where
  committed : ν
  pending : Option (τ × ν) := none
  deriving DecidableEq

namespace LockedRow

variable {τ ν : Type} [DecidableEq τ]

/-- What a transaction sees: its own write, or what is committed. -/
def seenBy (row : LockedRow τ ν) (t : τ) : ν :=
  match row.pending with
  | some (u, v) => if u = t then v else row.committed
  | none => row.committed

/-- Another transaction holds the lock. -/
def HeldByOther (row : LockedRow τ ν) (t : τ) : Prop :=
  ∃ p ∈ row.pending, p.1 ≠ t

instance (row : LockedRow τ ν) (t : τ) : Decidable (row.HeldByOther t) := by
  unfold HeldByOther
  infer_instance

/-- The row with a write of a transaction, which now holds its lock. -/
def write (t : τ) (v : ν) (row : LockedRow τ ν) : LockedRow τ ν :=
  { row with pending := some (t, v) }

/-- The row without the lock of a transaction. -/
def release (t : τ) (row : LockedRow τ ν) : LockedRow τ ν :=
  { row with pending := row.pending.filter fun p => p.1 ≠ t }

/-- An `UPDATE` that makes `f` of the row where its condition holds, and whether it matched. It
waits for the lock of another transaction. -/
def update (t : τ) (f : ν → Option ν) (row : LockedRow τ ν) : Option (LockedRow τ ν × Bool) :=
  match f (row.seenBy t) with
  | none => some (row, false)
  | some v => if row.HeldByOther t then none else some (row.write t v, true)

/-- The transaction commits. -/
def commit (t : τ) (row : LockedRow τ ν) : LockedRow τ ν :=
  { row.release t with committed := row.seenBy t }

/-- The transaction rolls back. -/
def rollback (t : τ) (row : LockedRow τ ν) : LockedRow τ ν :=
  row.release t

variable {row row' : LockedRow τ ν} {t u : τ} {f : ν → Option ν} {matched : Bool} {v : ν}

/-- What an `UPDATE` that does not wait does. -/
theorem update_eq_some (h : row.update t f = some (row', matched)) :
    (f (row.seenBy t) = none ∧ row' = row ∧ matched = false) ∨
      ∃ v, f (row.seenBy t) = some v ∧ ¬row.HeldByOther t ∧ row' = row.write t v ∧
        matched = true := by
  unfold update at h
  cases hf : f (row.seenBy t) with
  | none =>
    rw [hf] at h
    obtain ⟨rfl, rfl⟩ := Prod.mk.inj (Option.some.inj h)
    exact .inl ⟨rfl, rfl, rfl⟩
  | some v =>
    rw [hf] at h
    simp only at h
    split_ifs at h with hheld
    obtain ⟨rfl, rfl⟩ := Prod.mk.inj (Option.some.inj h)
    exact .inr ⟨v, rfl, hheld, rfl, rfl⟩

/-- An `UPDATE` that matches and need not wait. -/
theorem update_of_free (hheld : ¬row.HeldByOther t) (hf : f (row.seenBy t) = some v) :
    row.update t f = some (row.write t v, true) := by
  unfold update
  rw [hf]
  exact if_neg hheld

/-! ### What is seen -/

/-- Without a lock of its own, a transaction sees what is committed. -/
theorem seenBy_of_ne (h : ∀ p ∈ row.pending, p.1 ≠ t) : row.seenBy t = row.committed := by
  unfold seenBy
  cases hp : row.pending with
  | none => rfl
  | some p => exact if_neg (h p hp)

@[simp]
theorem seenBy_write_self (t : τ) (v : ν) (row : LockedRow τ ν) :
    (row.write t v).seenBy t = v := if_pos rfl

/-- The others do not see a write. -/
theorem seenBy_write_of_ne (h : u ≠ t) (v : ν) (row : LockedRow τ ν) :
    (row.write t v).seenBy u = row.committed :=
  seenBy_of_ne fun p hp => by
    obtain rfl : (t, v) = p := Option.some.inj hp
    exact h.symm

/-- Committing a write makes it the row. -/
@[simp]
theorem commit_write_self (t : τ) (v : ν) (row : LockedRow τ ν) :
    (row.write t v).commit t = { committed := v } := by
  simp [commit, release, write, seenBy, Option.filter]

@[simp]
theorem seenBy_release_self (t : τ) (row : LockedRow τ ν) :
    (row.release t).seenBy t = row.committed :=
  seenBy_of_ne fun p hp => by
    simpa using (Option.mem_filter_iff.mp hp).2

/-- Releasing a lock changes nothing that the others see. -/
theorem seenBy_release_of_ne (h : u ≠ t) (row : LockedRow τ ν) :
    (row.release t).seenBy u = row.seenBy u := by
  unfold seenBy release
  cases row.pending with
  | none => rfl
  | some p =>
    by_cases hp : p.1 = t
    · simp [Option.filter, hp, h.symm]
    · simp [Option.filter, hp]

/-- Where a transaction can write, no other one sees a write of its own. -/
theorem seenBy_of_not_heldByOther (hheld : ¬row.HeldByOther t) (h : u ≠ t) :
    row.seenBy u = row.committed := by
  refine seenBy_of_ne fun p hp hu => ?_
  refine hheld ⟨p, hp, fun ht => h ?_⟩
  rw [← hu, ht]

/-! ### What a transaction has changed -/

section Accounts

variable {M : Type} [AddGroup M] {amount : ν → M} {change d : M}

/-- The transaction has changed the amount of the row by `change`. -/
def Accounts (amount : ν → M) (row : LockedRow τ ν) (t : τ) (change : M) : Prop :=
  amount (row.seenBy t) = amount row.committed + change

/-- A transaction that sees what is committed has changed nothing. -/
theorem Accounts.eq_zero (h : row.Accounts amount u change) (hseen : row.seenBy u = row.committed) :
    change = 0 := by
  rw [Accounts, hseen] at h
  exact left_eq_add.mp h

/-- A transaction that sees the committed value has changed nothing. -/
theorem accounts_zero (h : row.seenBy t = row.committed) : row.Accounts amount t 0 := by
  rw [Accounts, h, add_zero]

/-- A write adds to what the transaction has changed. -/
theorem Accounts.write (h : row.Accounts amount t change)
    (hv : amount v = amount (row.seenBy t) + d) :
    (row.write t v).Accounts amount t (change + d) := by
  show amount ((row.write t v).seenBy t) = amount row.committed + _
  rw [seenBy_write_self, hv, h, add_assoc]

/-- A write does not count for the others. -/
theorem Accounts.write_other (h : row.Accounts amount u change) (hheld : ¬row.HeldByOther t)
    (hne : u ≠ t) (v : ν) : (row.write t v).Accounts amount u change := by
  rw [h.eq_zero (seenBy_of_not_heldByOther hheld hne)]
  exact accounts_zero (seenBy_write_of_ne hne v row)

/-- A commit adds what the transaction has changed. -/
theorem Accounts.amount_commit (h : row.Accounts amount t change) :
    amount (row.commit t).committed = amount row.committed + change := h

/-- After a commit nothing of the transaction is outstanding. -/
theorem accounts_commit_self (t : τ) (row : LockedRow τ ν) :
    (row.commit t).Accounts amount t 0 := by
  refine accounts_zero (seenBy_of_ne fun p hp => ?_)
  simpa using (Option.mem_filter_iff.mp hp).2

/-- A commit leaves what the others have outstanding. -/
theorem Accounts.commit_other (h : row.Accounts amount u change) (hne : u ≠ t) :
    (row.commit t).Accounts amount u change := by
  by_cases hown : ∃ p ∈ row.pending, p.1 = t
  · -- the lock was the one of `t`, so `u` has changed nothing
    obtain ⟨p, hp, hpt⟩ := hown
    have hnone : ∀ q ∈ row.pending, q.1 ≠ u := by
      intro q hq hqu
      obtain rfl : p = q := Option.mem_unique hp hq
      exact hne (hqu.symm.trans hpt)
    rw [h.eq_zero (seenBy_of_ne hnone)]
    exact accounts_zero (seenBy_of_ne fun q hq => hnone q (Option.mem_filter_iff.mp hq).1)
  · -- `t` had no lock, so it commits nothing
    have hseen : row.seenBy t = row.committed :=
      seenBy_of_ne fun p hp hpt => hown ⟨p, hp, hpt⟩
    have hcommit : row.commit t = row.release t := by
      unfold commit
      rw [hseen]
      rfl
    rw [hcommit, Accounts, seenBy_release_of_ne hne]
    exact h

/-- After a rollback nothing of the transaction is outstanding. -/
theorem accounts_rollback_self (t : τ) (row : LockedRow τ ν) :
    (row.rollback t).Accounts amount t 0 :=
  accounts_zero (seenBy_release_self t row)

/-- A rollback leaves what the others have outstanding. -/
theorem Accounts.rollback_other (h : row.Accounts amount u change) (hne : u ≠ t) :
    (row.rollback t).Accounts amount u change := by
  rw [Accounts, rollback, seenBy_release_of_ne hne]
  exact h

end Accounts

/-! ### What holds of every version -/

/-- Both what is committed and what is written satisfy `p`. -/
def All (p : ν → Prop) (row : LockedRow τ ν) : Prop :=
  p row.committed ∧ ∀ q ∈ row.pending, p q.2

variable {p : ν → Prop}

/-- What holds of both values of a row holds of the one that a transaction sees. -/
theorem All.seenBy (h : row.All p) (t : τ) : p (row.seenBy t) := by
  unfold LockedRow.seenBy
  cases hp : row.pending with
  | none => exact h.1
  | some q =>
    simp only
    split_ifs
    · exact h.2 q hp
    · exact h.1

omit [DecidableEq τ] in
/-- Writing a value with the property keeps it of both. -/
theorem All.write (h : row.All p) (hv : p v) (t : τ) : (row.write t v).All p :=
  ⟨h.1, fun q hq => by obtain rfl := Option.some.inj hq; exact hv⟩

theorem All.release (h : row.All p) (t : τ) : (row.release t).All p :=
  ⟨h.1, fun q hq => h.2 q (Option.mem_filter_iff.mp hq).1⟩

theorem All.commit (h : row.All p) (t : τ) : (row.commit t).All p :=
  ⟨h.seenBy t, (h.release t).2⟩

theorem All.rollback (h : row.All p) (t : τ) : (row.rollback t).All p := h.release t

end LockedRow
