import InfraReplay.Common.While
import InfraReplay.Recording.Store
import Mathlib.Algebra.Order.Ring.Rat
import Mathlib.Logic.Relation

/-!
# Schema migrations

`upgrade` applies registered steps to a document until its version is high enough. How far a step
gets is up to the step, which may skip versions, so the progress of the loop is decided by data:
`Migrations` is a registry each of whose steps returns a document of a larger version, and
`Migrations.upgrade` is the loop on such a registry, which ends (`Migrations.ends_upgrade`).

A version is any JSON value. Numbers compare with an `int` and find the step registered for the
integer they equal, other values raise. `upgrade_staged` says which versions are refused and that an
upgrade may stop on the way.
-/

namespace InfraReplay

open Python

/-! ### Versions -/

/-- `v > n`, `v >= n` or `v < n`; only numbers compare with an `int`. -/
def compareInt (op : String) (test : PyFloat → Bool) (v : Value) : Except Error Bool :=
  match v.number? with
  | some f => .ok (test f)
  | none =>
    .error (.typeError
      ("'" ++ op ++ "' not supported between instances of '" ++ v.typeName ++ "' and 'int'"))

/-- `v > n`. -/
def isGreater (v : Value) (n : ℤ) : Except Error Bool :=
  compareInt ">" (fun
    | .finite q => decide ((n : ℚ) < q)
    | .inf negative => !negative
    | .nan => false) v

/-- `v >= n`. -/
def isAtLeast (v : Value) (n : ℤ) : Except Error Bool :=
  compareInt ">=" (fun
    | .finite q => decide ((n : ℚ) ≤ q)
    | .inf negative => !negative
    | .nan => false) v

/-- `v < n`. -/
def isLess (v : Value) (n : ℤ) : Except Error Bool :=
  compareInt "<" (fun
    | .finite q => decide (q < (n : ℚ))
    | .inf negative => negative
    | .nan => false) v

/-- `str(v)` for a version number; the digits of a float are not modelled. -/
def versionText : Value → String
  | .int i => toString i
  | v => v.typeName

/-- The integer that a value equals, as the key of a dictionary. -/
def integerKey (v : Value) : Option ℤ :=
  match v.number? with
  | some (.finite q) => if q.den = 1 then some q.num else none
  | _ => none

/-- A JSON object. -/
abbrev Document := Dict String Value

/-- `raw.get("schema_version", 1)`. -/
def versionOf (raw : Document) : Value := (raw.get? "schema_version").getD (.int 1)

/-! ### The loop -/

/-- `_MIGRATIONS`. -/
abbrev Registry := Dict ℤ (Document → Document)

/-- `_MIGRATIONS.get(version)`. -/
def Registry.find (registry : Registry) (version : Value) : Option (Document → Document) :=
  (integerKey version).bind registry.get?

/-- One turn of the loop in `upgrade`, on `raw` and `version`. -/
def upgradeTurn (registry : Registry) (toVersion : ℤ) :
    Document × Value → (Document × Value) ⊕ Except Error Document
  | (raw, version) =>
    match isLess version toVersion with
    | .error e => .inr (.error e)
    | .ok false => .inr (.ok raw)
    | .ok true =>
      match registry.find version with
      | none =>
        .inr (.error (.valueError
          ("no migration registered from schema_version " ++ versionText version)))
      | some migrate =>
        match (migrate raw).get? "schema_version" with
        | none => .inr (.error (.keyError "schema_version"))
        | some version' => .inl (migrate raw, version')

/-- A registry each of whose steps returns a document of a larger version. -/
structure Migrations where
  registry : Registry
  /-- `version > n` for the version of what the step from `n` returns. -/
  increasing : ∀ n migrate, registry.get? n = some migrate → ∀ raw,
    integerKey (versionOf raw) = some n →
      ∃ version, (migrate raw).get? "schema_version" = some version ∧
        isGreater version n = .ok true

/-- Nothing is registered. -/
def Migrations.empty : Migrations := ⟨[], by simp⟩

section Versions

variable {v : Value} {n k : ℤ}

/-- A version is below `n` when it is a number below it, or minus infinity. -/
theorem isLess_eq_true_iff : isLess v n = .ok true ↔
    (∃ q, v.number? = some (.finite q) ∧ q < n) ∨ v.number? = some (.inf true) := by
  rw [isLess, compareInt]
  cases v.number? with
  | none => simp
  | some f => cases f <;> simp

/-- A version is above `n` when it is a number above it, or infinity. -/
theorem isGreater_eq_true_iff : isGreater v n = .ok true ↔
    (∃ q, v.number? = some (.finite q) ∧ (n : ℚ) < q) ∨ v.number? = some (.inf false) := by
  rw [isGreater, compareInt]
  cases v.number? with
  | none => simp
  | some f => cases f <;> simp

/-- A version finds the migrations of an integer when it is equal to it as a number. -/
theorem integerKey_eq_some_iff : integerKey v = some n ↔ v.number? = some (.finite n) := by
  unfold integerKey
  split
  next q hq =>
    rw [hq, Option.some.injEq, PyFloat.finite.injEq]
    constructor
    · intro h
      split_ifs at h with hden
      rw [← Option.some.inj h]
      exact (Rat.den_eq_one_iff q).mp hden |>.symm
    · rintro rfl
      rw [if_pos (Rat.den_intCast n), Rat.num_intCast]
  next h =>
    refine ⟨nofun, fun hv => ?_⟩
    exact absurd hv (h _)

/-- An integer that compares as less is less. -/
theorem lt_of_isLess {i : ℤ} (hi : integerKey v = some i) (h : isLess v n = .ok true) : i < n := by
  rw [integerKey_eq_some_iff] at hi
  rcases isLess_eq_true_iff.mp h with ⟨q, hq, hlt⟩ | hinf
  · rw [hi, Option.some.injEq, PyFloat.finite.injEq] at hq
    exact_mod_cast hq ▸ hlt
  · rw [hi] at hinf
    cases hinf

/-- An integer that compares as greater is greater. -/
theorem lt_of_isGreater {i : ℤ} (hi : integerKey v = some i) (h : isGreater v n = .ok true) :
    n < i := by
  rw [integerKey_eq_some_iff] at hi
  rcases isGreater_eq_true_iff.mp h with ⟨q, hq, hgt⟩ | hinf
  · rw [hi, Option.some.injEq, PyFloat.finite.injEq] at hq
    exact_mod_cast hq ▸ hgt
  · rw [hi] at hinf
    cases hinf

/-- A version below one number is below every larger one. -/
theorem isLess_mono (hkn : k ≤ n) (h : isLess v k = .ok true) : isLess v n = .ok true := by
  rw [isLess_eq_true_iff] at h ⊢
  refine h.imp_left fun ⟨q, hq, hlt⟩ => ⟨q, hq, hlt.trans_le ?_⟩
  exact_mod_cast hkn

/-- Whether a comparison raises does not depend on the number. -/
theorem isLess_error {e : Error} (h : isLess v k = .error e) (n : ℤ) : isLess v n = .error e := by
  rw [isLess, compareInt] at h ⊢
  cases hv : v.number? with
  | none =>
    rw [hv] at h
    exact h
  | some f =>
    rw [hv] at h
    cases h

/-- A version that is below a number is not at least as large. -/
theorem isAtLeast_of_isLess (h : isLess v n = .ok true) : isAtLeast v n = .ok false := by
  rw [isAtLeast, compareInt]
  rcases isLess_eq_true_iff.mp h with ⟨q, hq, hlt⟩ | hinf
  · simp [hq, hlt]
  · simp [hinf]

/-- Either comparison raises when the other one does. -/
theorem isAtLeast_error {e : Error} (h : isLess v n = .error e) :
    ∃ message, isAtLeast v n = .error (.typeError message) := by
  rw [isLess, compareInt] at h
  rw [isAtLeast, compareInt]
  cases hv : v.number? with
  | none => exact ⟨_, rfl⟩
  | some f =>
    rw [hv] at h
    cases h

/-- A comparison can only raise a `TypeError`. -/
theorem exists_typeError_of_isGreater {e : Error} (h : isGreater v n = .error e) :
    ∃ message, e = .typeError message := by
  rw [isGreater, compareInt] at h
  split at h
  · cases h
  · cases h
    exact ⟨_, rfl⟩

/-- A value that has an order on one side has it on the other. -/
theorem exists_isAtLeast {low : Bool} (h : isLess v n = .ok low) :
    ∃ high, isAtLeast v n = .ok high := by
  rw [isLess, compareInt] at h
  rw [isAtLeast, compareInt]
  cases hv : v.number? with
  | none =>
    rw [hv] at h
    cases h
  | some f => exact ⟨_, rfl⟩

/-- A number, and not NaN. -/
def IsNumber (v : Value) : Prop := ∃ f, v.number? = some f ∧ f ≠ .nan

/-- A number is below another one or at least as large. -/
theorem IsNumber.isLess_or (h : IsNumber v) (n : ℤ) :
    isLess v n = .ok true ∨ isLess v n = .ok false ∧ isAtLeast v n = .ok true := by
  obtain ⟨f, hf, hnan⟩ := h
  rw [isLess, isAtLeast, compareInt, compareInt, hf]
  cases f with
  | nan => exact absurd rfl hnan
  | inf negative => cases negative <;> simp
  | finite q => rcases lt_or_ge q (n : ℚ) with hlt | hle <;> simp [*]

/-- Only numbers are above `n`. -/
theorem isNumber_of_isGreater (h : isGreater v n = .ok true) : IsNumber v := by
  rcases isGreater_eq_true_iff.mp h with ⟨q, hq, -⟩ | hinf
  · exact ⟨_, hq, nofun⟩
  · exact ⟨_, hinf, nofun⟩

/-- An integer below what is below `n` is below `n`. -/
theorem lt_of_isGreater_of_isLess {i : ℤ} (hi : isGreater v i = .ok true)
    (hn : isLess v n = .ok true) : i < n := by
  rcases isLess_eq_true_iff.mp hn with ⟨q, hq, hlt⟩ | hinf
  · rcases isGreater_eq_true_iff.mp hi with ⟨q', hq', hgt⟩ | hinf'
    · rw [hq, Option.some.injEq, PyFloat.finite.injEq] at hq'
      exact_mod_cast (hq' ▸ hgt).trans hlt
    · rw [hq] at hinf'
      cases hinf'
  · rcases isGreater_eq_true_iff.mp hi with ⟨q', hq', -⟩ | hinf'
    · rw [hinf] at hq'
      cases hq'
    · rw [hinf] at hinf'
      cases hinf'

end Versions

section Turn

variable {registry : Registry} {n k : ℤ} {raw raw' : Document} {v v' : Value}

/-- A turn that goes on applies the step of a version that is too low. -/
theorem upgradeTurn_eq_inl_iff : upgradeTurn registry n (raw, v) = .inl (raw', v') ↔
    isLess v n = .ok true ∧ ∃ migrate, registry.find v = some migrate ∧ raw' = migrate raw ∧
      raw'.get? "schema_version" = some v' := by
  rw [upgradeTurn]
  cases isLess v n with
  | error e => simp
  | ok low =>
    cases low with
    | false => simp
    | true =>
      cases registry.find v with
      | none => simp
      | some migrate =>
        -- the step is taken, and the version of its result decides
        cases hv : Dict.get? (migrate raw) "schema_version" with
        | none =>
          simp only [hv]
          refine ⟨nofun, ?_⟩
          rintro ⟨-, migrate', hmigrate, rfl, hv'⟩
          obtain rfl := Option.some.inj hmigrate
          rw [hv] at hv'
          cases hv'
        | some version =>
          simp only [hv]
          constructor
          · intro h
            cases h
            exact ⟨trivial, migrate, rfl, rfl, hv⟩
          · rintro ⟨-, migrate', hmigrate, rfl, hv'⟩
            obtain rfl := Option.some.inj hmigrate
            obtain rfl := Option.some.inj (hv.symm.trans hv')
            rfl

/-- The ways the loop is left: the version does not compare, it is high enough, it has no step, or
its step returns a document without a version. -/
theorem upgradeTurn_eq_inr {r : Except Error Document}
    (h : upgradeTurn registry n (raw, v) = .inr r) :
    (∃ e, isLess v n = .error e ∧ r = .error e) ∨ (isLess v n = .ok false ∧ r = .ok raw) ∨
      (isLess v n = .ok true ∧ registry.find v = none ∧ r = .error (.valueError
        ("no migration registered from schema_version " ++ versionText v))) ∨
      ∃ migrate, isLess v n = .ok true ∧ registry.find v = some migrate ∧
        (migrate raw).get? "schema_version" = none ∧ r = .error (.keyError "schema_version") := by
  rw [upgradeTurn] at h
  split at h
  next e hless =>
    cases h
    exact .inl ⟨e, hless, rfl⟩
  next hless =>
    cases h
    exact .inr (.inl ⟨hless, rfl⟩)
  next hless =>
    -- the version is below n, so a step is looked up
    split at h
    next hfind =>
      cases h
      exact .inr (.inr (.inl ⟨hless, hfind, rfl⟩))
    next migrate hfind =>
      split at h
      next hv =>
        cases h
        exact .inr (.inr (.inr ⟨migrate, hless, hfind, hv, rfl⟩))
      next => cases h

/-- A turn at a version with no migration raises. -/
theorem upgradeTurn_of_gap (hless : isLess v n = .ok true) (hfind : registry.find v = none) :
    upgradeTurn registry n (raw, v) = .inr (.error (.valueError
      ("no migration registered from schema_version " ++ versionText v))) := by
  simp only [upgradeTurn, hless, hfind]

/-- What an upgrade to a version refuses, it refuses on the way to every higher version. -/
theorem upgradeTurn_error {e : Error} (hkn : k ≤ n)
    (h : upgradeTurn registry k (raw, v) = .inr (.error e)) :
    upgradeTurn registry n (raw, v) = .inr (.error e) := by
  rcases upgradeTurn_eq_inr h with ⟨e', hless, hr⟩ | ⟨-, hr⟩ | ⟨hless, hfind, hr⟩ |
    ⟨migrate, hless, hfind, hv, hr⟩
  · cases hr
    simp only [upgradeTurn, isLess_error hless n]
  · cases hr
  · rw [hr]
    exact upgradeTurn_of_gap (isLess_mono hkn hless) hfind
  · rw [hr]
    simp only [upgradeTurn, isLess_mono hkn hless, hfind, hv]

/-- The version of the loop is the version of the document. -/
theorem versionOf_upgradeTurn (h : upgradeTurn registry n (raw, v) = .inl (raw', v')) :
    versionOf raw' = v' := by
  obtain ⟨-, migrate, -, -, hv⟩ := upgradeTurn_eq_inl_iff.mp h
  rw [versionOf, hv, Option.getD_some]

end Turn

namespace Migrations

variable (m : Migrations) {n k : ℤ} {raw raw' : Document}

/-- The registered step from the version of a document. -/
def Step (raw raw' : Document) : Prop :=
  ∃ migrate, m.registry.find (versionOf raw) = some migrate ∧ raw' = migrate raw

/-- Following the steps from a document meets a version below `n` that has none. -/
def Blocked (n : ℤ) (raw : Document) : Prop :=
  ∃ raw', Relation.ReflTransGen m.Step raw raw' ∧ isLess (versionOf raw') n = .ok true ∧
    m.registry.find (versionOf raw') = none

variable {m}

/-- A step starts at an integer and returns a larger version. -/
theorem Step.version (h : m.Step raw raw') : ∃ i version,
    integerKey (versionOf raw) = some i ∧ raw'.get? "schema_version" = some version ∧
      isGreater version i = .ok true := by
  obtain ⟨migrate, hfind, rfl⟩ := h
  obtain ⟨i, hi, hget⟩ := Option.bind_eq_some_iff.mp hfind
  obtain ⟨version, hversion, hgreater⟩ := m.increasing i migrate hget raw hi
  exact ⟨i, version, hi, hversion, hgreater⟩

/-- What a step starts from is below whatever its result is below. -/
theorem Step.isLess (h : m.Step raw raw') (hless : isLess (versionOf raw') n = .ok true) :
    InfraReplay.isLess (versionOf raw) n = .ok true := by
  obtain ⟨i, version, hi, hversion, hgreater⟩ := h.version
  rw [versionOf, hversion, Option.getD_some] at hless
  refine isLess_eq_true_iff.mpr (.inl ⟨i, integerKey_eq_some_iff.mp hi, ?_⟩)
  exact_mod_cast lt_of_isGreater_of_isLess hgreater hless

/-- A migration leaves a number as its version. -/
theorem Step.isNumber (h : m.Step raw raw') : IsNumber (versionOf raw') := by
  obtain ⟨i, version, -, hversion, hgreater⟩ := h.version
  rw [versionOf, hversion, Option.getD_some]
  exact isNumber_of_isGreater hgreater

variable (m)

/-- The versions that are left to go through. -/
def distance (n : ℤ) (s : Document × Value) : ℕ :=
  match integerKey s.2 with
  | some i => (n - i).toNat
  | none => 0

/-- A turn of the loop raises the version, so it comes nearer to `n`. -/
theorem distance_upgradeTurn {s s' : Document × Value} (hs : versionOf s.1 = s.2)
    (h : upgradeTurn m.registry n s = .inl s') :
    versionOf s'.1 = s'.2 ∧ distance n s' < distance n s := by
  obtain ⟨raw, v⟩ := s
  obtain ⟨raw', v'⟩ := s'
  refine ⟨versionOf_upgradeTurn h, ?_⟩
  obtain ⟨hless, migrate, hfind, hraw, hv⟩ := upgradeTurn_eq_inl_iff.mp h
  have hstep : m.Step raw raw' := ⟨migrate, (congrArg m.registry.find hs).trans hfind, hraw⟩
  obtain ⟨i, version, hi, hversion, hgreater⟩ := hstep.version
  rw [hversion, Option.some.injEq] at hv
  subst hv
  rw [hs] at hi
  -- the step starts at an integer below `n`
  have hlt : i < n := lt_of_isLess hi hless
  simp only [distance, hi]
  cases hj : integerKey version with
  | none =>
    -- no step is registered for such a version, so none is left
    simp [hlt]
  | some j =>
    have hij : i < j := lt_of_isGreater hj hgreater
    simp only
    omega

/-- The loop ends. -/
theorem exists_run (raw : Document) (n : ℤ) :
    ∃ r, While.run (upgradeTurn m.registry n) (distance n (raw, versionOf raw) + 1)
      (raw, versionOf raw) = some r :=
  While.exists_run (I := fun s => versionOf s.1 = s.2)
    (fun _ _ hs h => m.distance_upgradeTurn hs h) rfl (Nat.lt_succ_self _)

/-- `upgrade`. -/
def upgrade (raw : Document) (toVersion : ℤ) : Except Error Document :=
  While.result (upgradeTurn m.registry toVersion) _ (raw, versionOf raw)
    (m.exists_run raw toVersion)

/-- The loop ends with what `upgrade` returns. -/
theorem ends_upgrade (raw : Document) (n : ℤ) :
    While.Ends (upgradeTurn m.registry n) (raw, versionOf raw) (m.upgrade raw n) :=
  While.ends_result (m.exists_run raw n)

variable {m}

/-- `upgrade` is what the loop ends with. -/
theorem upgrade_eq {r : Except Error Document}
    (h : While.Ends (upgradeTurn m.registry n) (raw, versionOf raw) r) : m.upgrade raw n = r :=
  (m.ends_upgrade raw n).unique h

/-- With nothing registered, a version that is too low has no way up. -/
theorem upgrade_empty (raw : Document) (n : ℤ) : empty.upgrade raw n =
    (isLess (versionOf raw) n >>= fun low =>
      if low then throw (.valueError
        ("no migration registered from schema_version " ++ versionText (versionOf raw)))
      else pure raw) := by
  refine upgrade_eq (.stop ?_)
  have hfind : empty.registry.find (versionOf raw) = none := by
    rw [Registry.find]
    cases integerKey (versionOf raw) <;> rfl
  cases hless : isLess (versionOf raw) n with
  | error e => simp only [upgradeTurn, hless]; rfl
  | ok low => cases low <;> simp only [upgradeTurn, hless, hfind] <;> rfl

/-- Where the loop is left, at a document that was reached by steps. -/
theorem upgrade_eq_inr (m : Migrations) (raw : Document) (n : ℤ) :
    ∃ raw', Relation.ReflTransGen m.Step raw raw' ∧
      upgradeTurn m.registry n (raw', versionOf raw') = .inr (m.upgrade raw n) := by
  let inv : Document × Value → Prop := fun s =>
    versionOf s.1 = s.2 ∧ Relation.ReflTransGen m.Step raw s.1
  have hkept : ∀ s s', inv s → upgradeTurn m.registry n s = .inl s' → inv s' := by
    intro s s' hs h
    obtain ⟨-, migrate, hfind, hraw, -⟩ := upgradeTurn_eq_inl_iff.mp h
    refine ⟨versionOf_upgradeTurn h, hs.2.tail ⟨migrate, ?_, hraw⟩⟩
    rw [hs.1, hfind]
  obtain ⟨⟨raw', v⟩, ⟨hv, hreach⟩, hstop⟩ := (m.ends_upgrade raw n).invariant hkept ⟨rfl, .refl⟩
  refine ⟨raw', hreach, ?_⟩
  rw [show versionOf raw' = v from hv, hstop]

/-- Every document that steps reach has a number for its version if the first one has. -/
theorem isNumber_of_reflTransGen (h : Relation.ReflTransGen m.Step raw raw')
    (hraw : IsNumber (versionOf raw)) : IsNumber (versionOf raw') := by
  cases h with
  | refl => exact hraw
  | tail _ hlast => exact hlast.isNumber

/-- A document whose chain of steps is blocked is refused. -/
theorem ends_of_blocked (h : m.Blocked n raw) : ∃ message,
    While.Ends (upgradeTurn m.registry n) (raw, versionOf raw) (.error (.valueError message)) := by
  obtain ⟨raw', hreach, hless, hfind⟩ := h
  suffices hall : isLess (versionOf raw) n = .ok true ∧ ∃ message,
      While.Ends (upgradeTurn m.registry n) (raw, versionOf raw) (.error (.valueError message)) from
    hall.2
  -- back from the version with no migration, one turn of the loop at a time
  induction hreach using Relation.ReflTransGen.head_induction_on with
  | refl => exact ⟨hless, _, .stop (upgradeTurn_of_gap hless hfind)⟩
  | @head raw₁ raw₂ hstep _ ih =>
    obtain ⟨hless₂, message, hends⟩ := ih
    have hless₁ := hstep.isLess hless₂
    obtain ⟨i, version, -, hversion, -⟩ := hstep.version
    obtain ⟨migrate, hstep, rfl⟩ := hstep
    have hnext : versionOf (migrate raw₁) = version := by
      rw [versionOf, hversion, Option.getD_some]
    refine ⟨hless₁, message, .next ?_ hends⟩
    exact upgradeTurn_eq_inl_iff.mpr ⟨hless₁, migrate, hstep, rfl, by rw [hnext, ← hversion]⟩

/-- The upgrade raises `ValueError` exactly when the chain of steps is blocked. -/
theorem upgrade_eq_valueError_iff :
    (∃ message, m.upgrade raw n = .error (.valueError message)) ↔ m.Blocked n raw := by
  constructor
  · rintro ⟨message, h⟩
    obtain ⟨raw', hreach, hstop⟩ := m.upgrade_eq_inr raw n
    rw [h] at hstop
    rcases upgradeTurn_eq_inr hstop with ⟨e, hless, hr⟩ | ⟨-, hr⟩ | ⟨hless, hfind, -⟩ |
      ⟨migrate, -, -, -, hr⟩
    · -- a comparison raises `TypeError`
      rw [isLess, compareInt] at hless
      split at hless
      · cases hless
      · cases hless
        cases hr
    · cases hr
    · exact ⟨raw', hreach, hless, hfind⟩
    · cases hr
  · intro h
    obtain ⟨message, hends⟩ := ends_of_blocked h
    exact ⟨message, upgrade_eq hends⟩

/-- A document with a number for its version is upgraded unless the chain is blocked. -/
theorem upgrade_of_not_blocked (hraw : IsNumber (versionOf raw)) (h : ¬m.Blocked n raw) :
    ∃ raw', m.upgrade raw n = .ok raw' ∧ isAtLeast (versionOf raw') n = .ok true := by
  obtain ⟨raw', hreach, hstop⟩ := m.upgrade_eq_inr raw n
  have hnumber := (isNumber_of_reflTransGen hreach hraw).isLess_or n
  rcases upgradeTurn_eq_inr hstop with ⟨e, hless, -⟩ | ⟨hless, hr⟩ | ⟨hless, hfind, -⟩ |
    ⟨migrate, -, hfind, hversion, -⟩
  · rcases hnumber with hnumber | ⟨hnumber, -⟩
    · rw [hnumber] at hless
      cases hless
    · rw [hnumber] at hless
      cases hless
  · refine ⟨raw', hr, ?_⟩
    rcases hnumber with hnumber | ⟨-, hleast⟩
    · rw [hnumber] at hless
      cases hless
    · exact hleast
  · exact absurd ⟨raw', hreach, hless, hfind⟩ h
  · -- a registered step returns a document with a version
    have hstep : m.Step raw' (migrate raw') := ⟨migrate, hfind, rfl⟩
    obtain ⟨i, version, -, hsome, -⟩ := hstep.version
    rw [hsome] at hversion
    cases hversion

/-- A loop that goes to a lower version first goes on from where it is left. -/
theorem ends_staged {k n : ℤ} (hkn : k ≤ n) {s : Document × Value} {r : Except Error Document}
    (h : While.Ends (upgradeTurn m.registry k) s r) (hs : versionOf s.1 = s.2) :
    While.Ends (upgradeTurn m.registry n) s (r >>= fun raw => m.upgrade raw n) := by
  induction h with
  | @stop s r hstop =>
    cases r with
    | error e => exact .stop (upgradeTurn_error hkn hstop)
    | ok raw =>
      -- the loop is left with the document it is at
      obtain ⟨raw', v⟩ := s
      rcases upgradeTurn_eq_inr hstop with ⟨e, -, hr⟩ | ⟨-, hr⟩ | ⟨-, -, hr⟩ | ⟨-, -, -, -, hr⟩
      · cases hr
      · cases hr
        have hv : versionOf raw = v := hs
        exact hv ▸ m.ends_upgrade raw n
      · cases hr
      · cases hr
  | @next s s' r hnext _ ih =>
    obtain ⟨hless, hrest⟩ := upgradeTurn_eq_inl_iff.mp hnext
    refine .next (upgradeTurn_eq_inl_iff.mpr ⟨isLess_mono hkn hless, hrest⟩) (ih ?_)
    exact versionOf_upgradeTurn hnext

/-- **Staged and direct upgrades.** The loop ends; it raises `ValueError` exactly when following
the steps from the document meets a version below `n` without a step, and otherwise, when the
version of the document is a number, it returns a document of version `n` or above; and to stop at a
version on the way changes nothing. -/
theorem upgrade_staged (m : Migrations) (raw : Document) {k n : ℤ} (hkn : k ≤ n) :
    While.Ends (upgradeTurn m.registry n) (raw, versionOf raw) (m.upgrade raw n) ∧
      ((∃ message, m.upgrade raw n = .error (.valueError message)) ↔ m.Blocked n raw) ∧
      (IsNumber (versionOf raw) → ¬m.Blocked n raw →
        ∃ raw', m.upgrade raw n = .ok raw' ∧ isAtLeast (versionOf raw') n = .ok true) ∧
      m.upgrade raw n = (m.upgrade raw k >>= fun raw' => m.upgrade raw' n) :=
  ⟨m.ends_upgrade raw n, upgrade_eq_valueError_iff, upgrade_of_not_blocked,
    upgrade_eq (ends_staged hkn (m.ends_upgrade raw k) rfl)⟩

/-- A step that only states a version. -/
def setVersion (version : ℤ) (raw : Document) : Document := raw.set "schema_version" (.int version)

/-- Steps from 1 to 2 and from 2 to 4. -/
def skipping : Migrations where
  registry := [(1, setVersion 2), (2, setVersion 4)]
  increasing n migrate h raw _ := by
    have hget : ∀ version, (setVersion version raw).get? "schema_version" = some (.int version) :=
      fun version => by rw [setVersion, Dict.get?_set, if_pos rfl]
    rw [Dict.get?_cons] at h
    split_ifs at h with h1
    · obtain rfl := Option.some.inj h
      subst h1
      exact ⟨_, hget 2, by decide⟩
    · rw [Dict.get?_cons] at h
      split_ifs at h with h2
      · obtain rfl := Option.some.inj h
        subst h2
        exact ⟨_, hget 4, by decide⟩
      · cases h

/-- An upgrade to version 3 overshoots to 4, and there is no way to version 5. -/
theorem upgrade_staged_skipping :
    skipping.upgrade [] 4 = (skipping.upgrade [] 3 >>= fun raw => skipping.upgrade raw 4) ∧
      (skipping.upgrade [] 3).map versionOf = .ok (.int 4) ∧ skipping.Blocked 5 [] :=
  ⟨(upgrade_staged skipping [] (by decide : (3 : ℤ) ≤ 4)).2.2.2, rfl,
    (upgrade_staged skipping [] (le_refl 5)).2.1.mp ⟨_, rfl⟩⟩

/-- A version that is no number raises `TypeError`. -/
theorem not_upgrade_staged_text : ¬∀ (m : Migrations) (raw : Document) (k n : ℤ), k ≤ n →
    While.Ends (upgradeTurn m.registry n) (raw, versionOf raw) (m.upgrade raw n) ∧
      ((∃ message, m.upgrade raw n = .error (.valueError message)) ↔ m.Blocked n raw) ∧
      (¬m.Blocked n raw →
        ∃ raw', m.upgrade raw n = .ok raw' ∧ isAtLeast (versionOf raw') n = .ok true) ∧
      m.upgrade raw n = (m.upgrade raw k >>= fun raw' => m.upgrade raw' n) := by
  intro h
  obtain ⟨-, hblocked, hreturns, -⟩ := h .empty [("schema_version", .str "2")] 1 1 (le_refl 1)
  have hraises : Migrations.empty.upgrade [("schema_version", .str "2")] 1 =
      .error (.typeError "'<' not supported between instances of 'str' and 'int'") := rfl
  obtain ⟨raw', hreturned, -⟩ := hreturns fun hgap => by
    obtain ⟨message, hmessage⟩ := hblocked.mpr hgap
    rw [hraises] at hmessage
    cases hmessage
  rw [hraises] at hreturned
  cases hreturned

end Migrations

end InfraReplay
