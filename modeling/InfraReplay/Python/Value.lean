import Mathlib.Data.Rat.Defs
import InfraReplay.Common.Dict

/-!
# JSON values as Python holds them

The values a payload is made of, with the comparison Python uses on them: `==` identifies `True`
with `1` and `1` with `1.0` and compares dictionaries without regard to order. A NaN differs from
every value, but `json.loads` makes every NaN one and the same object, and lists and dictionaries
take an object for equal to itself before they ask `==`. So a NaN inside a list or a dictionary is
equal to another, and only a NaN that is compared itself is not.

* `Value.eq` is `==`, `Value.same` is `is` or `==`, `Value.truthy` is `bool(v)`.
* `Value.wf` says that the keys of every dictionary are distinct, which Python guarantees by
  construction; `Payload` and `Json` carry it.
* `Value.eq_self` is the one thing to know about `v == v`: it holds unless `v` is a NaN.
-/

namespace Python

/-- A Python `float` as far as `==` sees it: a finite double is the rational it denotes, so the
two zeros are one value. -/
inductive PyFloat where
  | nan
  | inf (negative : Bool)
  | finite (q : ℚ)
  deriving DecidableEq

/-- `a == b` on floats. -/
def PyFloat.eq : PyFloat → PyFloat → Bool
  | .finite a, .finite b => decide (a = b)
  | .inf a, .inf b => a == b
  | _, _ => false

/-- A number is equal to itself unless it is NaN. -/
theorem PyFloat.eq_self (f : PyFloat) : f.eq f = decide (f ≠ .nan) := by
  cases f <;> simp [PyFloat.eq]

/-- Equal numbers are the same number. -/
theorem PyFloat.eq_iff {a b : PyFloat} : a.eq b = true ↔ a = b ∧ a ≠ .nan := by
  cases a <;> cases b <;> simp [PyFloat.eq]

/-- A value of a JSON document. -/
inductive Value where
  | none
  | bool (b : Bool)
  | int (i : ℤ)
  | float (f : PyFloat)
  | str (s : String)
  | list (vs : List Value)
  | dict (items : List (String × Value))

namespace Value

/-- To prove something of every value, prove it of the atoms, of a list from its elements, and of
a dictionary from its values. -/
@[elab_as_elim]
theorem induct {P : Value → Prop} (hnone : P .none) (hbool : ∀ b, P (.bool b))
    (hint : ∀ i, P (.int i)) (hfloat : ∀ f, P (.float f)) (hstr : ∀ s, P (.str s))
    (hlist : ∀ vs, (∀ v ∈ vs, P v) → P (.list vs))
    (hdict : ∀ items, (∀ p ∈ items, P p.2) → P (.dict items)) (v : Value) : P v :=
  Value.rec (motive_1 := P) (motive_2 := fun vs => ∀ v ∈ vs, P v)
    (motive_3 := fun items => ∀ p ∈ items, P p.2) (motive_4 := fun p => P p.2)
    hnone hbool hint hfloat hstr hlist hdict
    (by simp) (fun _ _ hv hvs => by simpa using ⟨hv, hvs⟩)
    (by simp) (fun _ _ hp hps => by simpa using ⟨hp, by simpa using hps⟩)
    (fun _ _ h => h) v

/-- The number a boolean, an integer or a float stands for in a comparison. -/
def number? : Value → Option PyFloat
  | .bool b => some (.finite (if b then 1 else 0))
  | .int i => some (.finite i)
  | .float f => some f
  | _ => Option.none

/-- The value is a NaN. -/
def isNan : Value → Bool
  | .float .nan => true
  | _ => false

mutual

/-- `v == w`. -/
def eq : Value → Value → Bool
  | .none, .none => true
  | .str s, .str t => decide (s = t)
  | .list vs, .list ws => eqList vs ws
  | .dict items, .dict items' => items.length == items'.length && eqItems items items'
  -- numbers compare by value whatever their types; values of other types differ
  | v, w =>
    match v.number?, w.number? with
    | some a, some b => a.eq b
    | _, _ => false

/-- Item by item: two NaN are one object, and an object is not asked whether it equals itself. -/
def eqList : List Value → List Value → Bool
  | [], [] => true
  | v :: vs, w :: ws => (v.isNan && w.isNan || eq v w) && eqList vs ws
  | _, _ => false

/-- Every item of the first dictionary has a value in the second that is the same or equal. -/
def eqItems : List (String × Value) → List (String × Value) → Bool
  | [], _ => true
  | (k, v) :: items, items' =>
    (match Dict.get? items' k with
    | some w => v.isNan && w.isNan || eq v w
    | Option.none => false) && eqItems items items'

end

/-- `v is w or v == w`. -/
def same (v w : Value) : Bool := v.isNan && w.isNan || v.eq w

mutual

/-- The keys of every dictionary inside the value are distinct. -/
def wf : Value → Bool
  | .list vs => wfList vs
  | .dict items => decide (items.map Prod.fst).Nodup && wfItems items
  | _ => true

def wfList : List Value → Bool
  | [] => true
  | v :: vs => wf v && wfList vs

def wfItems : List (String × Value) → Bool
  | [] => true
  | (_, v) :: items => wf v && wfItems items

end

/-- A list of values is well formed when each of them is. -/
theorem wfList_eq_true {vs : List Value} : wfList vs = true ↔ ∀ v ∈ vs, v.wf = true := by
  induction vs with
  | nil => simp [wfList]
  | cons v vs ih => simp [wfList, ih]

/-- The items of a dictionary are well formed when their values are. -/
theorem wfItems_eq_true {items : List (String × Value)} :
    wfItems items = true ↔ ∀ p ∈ items, p.2.wf = true := by
  induction items with
  | nil => simp [wfItems]
  | cons p items ih => simp [wfItems, ih]

/-- A dictionary is well formed when its keys are distinct and its values well formed. -/
theorem wf_dict {items : List (String × Value)} :
    (Value.dict items).wf = true ↔
      (items.map Prod.fst).Nodup ∧ ∀ p ∈ items, p.2.wf = true := by
  simp [wf, wfItems_eq_true]

/-- A list is well formed when its elements are. -/
theorem wf_list {vs : List Value} : (Value.list vs).wf = true ↔ ∀ v ∈ vs, v.wf = true := by
  simp [wf, wfList_eq_true]

/-- The items of a dictionary are compared by looking each of them up in the other. -/
theorem eqItems_eq {items items' : List (String × Value)} :
    eqItems items items' = items.all fun p =>
      match Dict.get? items' p.1 with
      | some w => p.2.same w
      | Option.none => false := by
  induction items with
  | nil => rfl
  | cons p items ih => simp [eqItems, ih, same]

/-- There is one value that is NaN. -/
theorem isNan_iff {v : Value} : v.isNan = true ↔ v = .float .nan := by
  constructor
  · intro h
    cases v with
    | float f =>
      cases f with
      | nan => rfl
      | _ => cases h
    | _ => cases h
  · rintro rfl
    rfl

private theorem eqList_self {vs : List Value} (h : ∀ v ∈ vs, v.same v = true) :
    eqList vs vs = true := by
  induction vs with
  | nil => rfl
  | cons v vs ih =>
    rw [eqList, ← same, h v (by simp), ih fun w hw => h w (by simp [hw]), Bool.and_self]

private theorem eqItems_self {items : List (String × Value)}
    (hnd : (items.map Prod.fst).Nodup) (h : ∀ p ∈ items, p.2.same p.2 = true) :
    eqItems items items = true := by
  rw [eqItems_eq, List.all_eq_true]
  intro p hp
  rw [(Dict.get?_eq_some_iff hnd).mpr hp]
  exact h p hp

/-- A value is equal to itself unless it is a NaN. -/
theorem eq_self (v : Value) (hwf : v.wf = true) : v.eq v = !v.isNan := by
  induction v using Value.induct with
  | hnone => rfl
  | hbool b => simp [eq, number?, PyFloat.eq_self, isNan]
  | hint i => simp [eq, number?, PyFloat.eq_self, isNan]
  | hfloat f => cases f <;> simp [eq, number?, PyFloat.eq_self, isNan]
  | hstr s => simp [eq, isNan]
  | hlist vs ih =>
    have hsame : ∀ v ∈ vs, v.same v = true := by
      intro v hv
      rw [same, ih v hv (wf_list.mp hwf v hv), Bool.and_self, Bool.or_not_self]
    rw [eq, eqList_self hsame]
    rfl
  | hdict items ih =>
    -- with distinct keys each item finds itself
    obtain ⟨hnd, hvals⟩ := wf_dict.mp hwf
    have hsame : ∀ p ∈ items, p.2.same p.2 = true := by
      intro p hp
      rw [same, ih p hp (hvals p hp), Bool.and_self, Bool.or_not_self]
    rw [eq, eqItems_self hnd hsame]
    simp [isNan]

theorem wf_none : Value.none.wf = true := rfl

theorem wf_dict_nil : (Value.dict []).wf = true := rfl

/-- `type(v).__name__`. -/
def typeName : Value → String
  | .none => "NoneType"
  | .bool _ => "bool"
  | .int _ => "int"
  | .float _ => "float"
  | .str _ => "str"
  | .list _ => "list"
  | .dict _ => "dict"

/-- `bool(v)`. -/
def truthy : Value → Bool
  | .none => false
  | .bool b => b
  | .int i => decide (i ≠ 0)
  | .float f => decide (f ≠ .finite 0)
  | .str s => decide (s ≠ "")
  | .list vs => !vs.isEmpty
  | .dict items => !items.isEmpty

end Value

/-- A JSON value with distinct keys in every object. -/
@[ext]
structure Json where
  /-- The value itself. -/
  val : Value
  wf : val.wf = true

/-- A string as a JSON value. -/
def Json.ofString (s : String) : Json := ⟨.str s, rfl⟩

/-- An integer as a JSON value. -/
def Json.ofInt (i : ℤ) : Json := ⟨.int i, rfl⟩

/-- A JSON object with distinct keys at every level: what a `dict` field of a model holds. -/
@[ext]
structure Payload where
  /-- The items in insertion order. -/
  items : Dict String Value
  wf : (Value.dict items).wf = true

/-- A dictionary of strings as a JSON value. -/
def Json.ofStrings (pairs : List (String × String)) : Json where
  val := .dict ((Dict.ofPairs pairs).map fun p => (p.1, .str p.2))
  wf := by
    rw [Value.wf_dict, List.map_map]
    refine ⟨Dict.nodup_keys_ofPairs pairs, fun p hp => ?_⟩
    obtain ⟨q, -, rfl⟩ := List.mem_map.mp hp
    rfl

namespace Payload

/-- An object with the given entries, whose keys are distinct. -/
def ofEntries (entries : List (String × Json)) (h : (entries.map Prod.fst).Nodup) : Payload where
  items := entries.map fun p => (p.1, p.2.val)
  wf := by
    rw [Value.wf_dict, List.map_map]
    refine ⟨h, fun p hp => ?_⟩
    obtain ⟨q, -, rfl⟩ := List.mem_map.mp hp
    exact q.2.wf

/-- `{**payload, key: value}`. -/
def set (p : Payload) (key : String) (value : Json) : Payload where
  items := Dict.set p.items key value.val
  wf := by
    obtain ⟨hnd, hvals⟩ := Value.wf_dict.mp p.wf
    rw [Value.wf_dict]
    refine ⟨Dict.nodup_keys_set hnd key value.val, fun q hq => ?_⟩
    rcases Dict.mem_set hq with rfl | hq
    · exact value.wf
    · exact hvals q hq

/-- `payload[key]` when the key is present. -/
def get? (p : Payload) (key : String) : Option Value := Dict.get? p.items key

/-- `payload.get(key)`. -/
def getD (p : Payload) (key : String) : Value := (p.get? key).getD .none

/-- `key in payload`. -/
def has (p : Payload) (key : String) : Bool := (p.get? key).isSome

/-- The empty object. -/
def empty : Payload := ⟨[], rfl⟩

/-- What a payload answers for a key is well formed. -/
theorem wf_getD (p : Payload) (key : String) : (p.getD key).wf = true := by
  rw [getD, get?]
  cases h : Dict.get? p.items key with
  | none => rfl
  | some v => exact (Value.wf_dict.mp p.wf).2 _ (Dict.mem_of_get?_eq_some h)

end Payload

end Python
