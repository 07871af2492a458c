import InfraReplay.Python.Value

/-!
# Values as a model dumps them

`model_dump(mode="json")` on a value that is JSON already: a NaN and the infinities, for which JSON
has no number, become null, at any depth. What comes out is finite (`isFinite_jsonMode`), and a
value comes out as it was exactly when it was finite (`jsonMode_eq_self_iff`).
-/

namespace Python

/-- Neither NaN nor an infinity. -/
def PyFloat.isFinite : PyFloat → Bool
  | .finite _ => true
  | _ => false

namespace Value

mutual

/-- No number in the value is NaN or infinite. -/
def isFinite : Value → Bool
  | .float f => f.isFinite
  | .list vs => isFiniteList vs
  | .dict items => isFiniteItems items
  | _ => true

def isFiniteList : List Value → Bool
  | [] => true
  | v :: vs => isFinite v && isFiniteList vs

def isFiniteItems : List (String × Value) → Bool
  | [] => true
  | (_, v) :: items => isFinite v && isFiniteItems items

end

mutual

/-- The value in JSON mode. -/
def jsonMode : Value → Value
  | .float f => if f.isFinite then .float f else .none
  | .list vs => .list (jsonModeList vs)
  | .dict items => .dict (jsonModeItems items)
  | v => v

def jsonModeList : List Value → List Value
  | [] => []
  | v :: vs => jsonMode v :: jsonModeList vs

def jsonModeItems : List (String × Value) → List (String × Value)
  | [] => []
  | (k, v) :: items => (k, jsonMode v) :: jsonModeItems items

end

theorem isFinite_list {vs : List Value} :
    (Value.list vs).isFinite = true ↔ ∀ v ∈ vs, v.isFinite = true := by
  rw [isFinite]
  induction vs with
  | nil => simp [isFiniteList]
  | cons v vs ih => simp [isFiniteList, ih]

theorem isFinite_dict {items : List (String × Value)} :
    (Value.dict items).isFinite = true ↔ ∀ p ∈ items, p.2.isFinite = true := by
  rw [isFinite]
  induction items with
  | nil => simp [isFiniteItems]
  | cons p items ih => simp [isFiniteItems, ih]

theorem jsonMode_list (vs : List Value) : (Value.list vs).jsonMode = .list (vs.map jsonMode) := by
  rw [jsonMode]
  congr 1
  induction vs with
  | nil => rfl
  | cons v vs ih => simp [jsonModeList, ih]

theorem jsonModeItems_eq (items : List (String × Value)) :
    jsonModeItems items = items.map fun p => (p.1, p.2.jsonMode) := by
  induction items with
  | nil => rfl
  | cons p items ih => simp [jsonModeItems, ih]

theorem jsonMode_dict (items : List (String × Value)) :
    (Value.dict items).jsonMode = .dict (items.map fun p => (p.1, p.2.jsonMode)) := by
  rw [jsonMode, jsonModeItems_eq]

/-- What comes out is finite. -/
theorem isFinite_jsonMode (v : Value) : v.jsonMode.isFinite = true := by
  induction v using Value.induct with
  | hfloat f => cases f <;> rfl
  | hlist vs ih =>
    rw [jsonMode_list, isFinite_list]
    intro w hw
    obtain ⟨v, hv, rfl⟩ := List.mem_map.mp hw
    exact ih v hv
  | hdict items ih =>
    rw [jsonMode_dict, isFinite_dict]
    intro p hp
    obtain ⟨q, hq, rfl⟩ := List.mem_map.mp hp
    exact ih q hq
  | hnone => rfl
  | hbool b => rfl
  | hint i => rfl
  | hstr s => rfl

/-- A finite value comes out as it was. -/
theorem jsonMode_eq_self {v : Value} (h : v.isFinite = true) : v.jsonMode = v := by
  induction v using Value.induct with
  | hfloat f => exact if_pos h
  | hlist vs ih =>
    rw [isFinite_list] at h
    rw [jsonMode_list, List.map_congr_left fun v hv => ih v hv (h v hv), List.map_id']
  | hdict items ih =>
    rw [isFinite_dict] at h
    have hentry : ∀ p ∈ items, (p.1, p.2.jsonMode) = p := by
      intro p hp
      rw [ih p hp (h p hp)]
    rw [jsonMode_dict, List.map_congr_left hentry, List.map_id']
  | hnone => rfl
  | hbool b => rfl
  | hint i => rfl
  | hstr s => rfl

/-- A value that comes out as it was is finite. -/
theorem jsonMode_eq_self_iff {v : Value} : v.jsonMode = v ↔ v.isFinite = true := by
  constructor
  · intro h
    have hfinite := isFinite_jsonMode v
    rwa [h] at hfinite
  · exact jsonMode_eq_self

/-- The keys stay. -/
theorem wf_jsonMode {v : Value} (h : v.wf = true) : v.jsonMode.wf = true := by
  induction v using Value.induct with
  | hfloat f => cases f <;> rfl
  | hlist vs ih =>
    rw [jsonMode_list, wf_list]
    intro w hw
    obtain ⟨v, hv, rfl⟩ := List.mem_map.mp hw
    exact ih v hv (wf_list.mp h v hv)
  | hdict items ih =>
    obtain ⟨hnd, hvals⟩ := wf_dict.mp h
    rw [jsonMode_dict, wf_dict, List.map_map]
    refine ⟨hnd, fun p hp => ?_⟩
    obtain ⟨q, hq, rfl⟩ := List.mem_map.mp hp
    exact ih q hq (hvals q hq)
  | hnone => rfl
  | hbool b => rfl
  | hint i => rfl
  | hstr s => rfl

end Value

namespace Payload

/-- The payload in JSON mode. -/
def jsonMode (p : Payload) : Payload where
  items := Value.jsonModeItems p.items
  wf := Value.wf_jsonMode p.wf

/-- No number in the payload is NaN or infinite. -/
def isFinite (p : Payload) : Bool := (Value.dict p.items).isFinite

theorem jsonMode_eq_self_iff {p : Payload} : p.jsonMode = p ↔ p.isFinite = true := by
  rw [isFinite, ← Value.jsonMode_eq_self_iff, Value.jsonMode, Value.dict.injEq]
  exact Payload.ext_iff

end Payload

end Python
