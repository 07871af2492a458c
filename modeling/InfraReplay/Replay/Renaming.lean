import Mathlib.Logic.Equiv.List
import InfraReplay.Replay.Substitution

/-!
# Substitution is one renaming

The engine walks through the payloads of a run and remembers what it has made up on the way. The
result is as if one function on strings had been fixed beforehand and put to every string of every
payload.

* `SubstitutionEngine.Later` is the order in which the states of one engine follow each other: the
  memory only grows, so what it holds at the end is what every string got.
* `SubstitutionEngine.Memory` says that the memory holds ids of the supply, no two strings the
  same one.
* `SubstitutionEngine.replacementOf` is the function read off the last state.
-/

namespace Python

namespace Value

mutual

/-- `f` at every string inside the value. Keys are not values. -/
def mapStr (f : String → String) : Value → Value
  | .str s => .str (f s)
  | .list vs => .list (mapStrList f vs)
  | .dict items => .dict (mapStrItems f items)
  | v => v

def mapStrList (f : String → String) : List Value → List Value
  | [] => []
  | v :: vs => mapStr f v :: mapStrList f vs

def mapStrItems (f : String → String) : List (String × Value) → List (String × Value)
  | [] => []
  | (k, v) :: items => (k, mapStr f v) :: mapStrItems f items

end

variable {f : String → String}

/-- On lists, renaming is `map`. -/
theorem mapStrList_eq_map (vs : List Value) : mapStrList f vs = vs.map (mapStr f) := by
  induction vs with
  | nil => rfl
  | cons v vs ih => rw [mapStrList, ih, List.map_cons]

/-- On the items of a dictionary, renaming maps the values and leaves the keys. -/
theorem mapStrItems_eq_map (items : List (String × Value)) :
    mapStrItems f items = items.map fun p => (p.1, mapStr f p.2) := by
  induction items with
  | nil => rfl
  | cons p items ih => rw [mapStrItems, ih, List.map_cons]

/-- Renaming keeps the keys of every dictionary. -/
theorem wf_mapStr {v : Value} (h : v.wf = true) : (v.mapStr f).wf = true := by
  induction v using Value.induct with
  | hdict items ih =>
    obtain ⟨hnd, hvals⟩ := wf_dict.mp h
    rw [mapStr, mapStrItems_eq_map, wf_dict, List.map_map]
    refine ⟨hnd, fun p hp => ?_⟩
    obtain ⟨q, hq, rfl⟩ := List.mem_map.mp hp
    exact ih q hq (hvals q hq)
  | hlist vs ih =>
    rw [mapStr, mapStrList_eq_map, wf_list]
    intro w hw
    obtain ⟨v, hv, rfl⟩ := List.mem_map.mp hw
    exact ih v hv (wf_list.mp h v hv)
  | hnone => rfl
  | hbool b => rfl
  | hint i => rfl
  | hfloat x => rfl
  | hstr s => rfl

/-- A function that keeps every string keeps every value. -/
theorem mapStr_eq_self (hf : ∀ s, f s = s) (v : Value) : v.mapStr f = v := by
  induction v using Value.induct with
  | hdict items ih =>
    rw [mapStr, mapStrItems_eq_map]
    congr 1
    refine (List.map_congr_left fun p hp => ?_).trans (List.map_id items)
    rw [ih p hp]
    rfl
  | hlist vs ih =>
    rw [mapStr, mapStrList_eq_map]
    congr 1
    exact (List.map_congr_left fun v hv => ih v hv).trans (List.map_id vs)
  | hstr s => rw [mapStr, hf]
  | hnone => rfl
  | hbool b => rfl
  | hint i => rfl
  | hfloat x => rfl

end Value

/-- `f` at every string of the payload. -/
def Payload.mapStr (f : String → String) (payload : Payload) : Payload where
  items := Value.mapStrItems f payload.items
  wf := by
    have hwf : ((Value.dict payload.items).mapStr f).wf = true := Value.wf_mapStr payload.wf
    rwa [Value.mapStr] at hwf

end Python

namespace InfraReplay

open Python

/-! ### Expanding the mapping -/

/-- An expansion uses up some of the supply. -/
theorem le_expandChars (supply : Supply) (skip calls : ℕ) (cs : List Char) :
    calls ≤ (expandChars supply skip calls cs).2 := by
  induction cs generalizing skip calls with
  | nil => rw [expandChars]
  | cons c cs ih =>
    cases skip with
    | succ skip =>
      rw [expandChars]
      exact ih skip calls
    | zero =>
      rw [expandChars]
      split
      next name _ =>
        -- a template draws at most once from the supply
        have hcalls : calls ≤ (templateValue supply calls (String.ofList name)).2 := by
          rw [templateValue]
          split_ifs <;> simp
        exact hcalls.trans (ih _ _)
      next => exact ih 0 calls

/-- Expanding a text never lowers the number of calls. -/
theorem le_expand (supply : Supply) (calls : ℕ) (value : String) :
    calls ≤ (expand supply calls value).2 := le_expandChars supply 0 calls value.toList

/-- Nor does expanding all of them. -/
theorem le_expandMapping (supply : Supply) (calls : ℕ) (mapping : Dict String String) :
    calls ≤ (expandMapping supply calls mapping).2 := by
  induction mapping generalizing calls with
  | nil => rw [expandMapping]
  | cons p mapping ih => exact (le_expand supply calls p.2).trans (ih _)

/-- The strings that are mapped stay the same. -/
theorem get?_expandMapping_eq_none {supply : Supply} {calls : ℕ} {mapping : Dict String String}
    {k : String} :
    (expandMapping supply calls mapping).1.get? k = none ↔ mapping.get? k = none := by
  induction mapping generalizing calls with
  | nil => simp [expandMapping]
  | cons p mapping ih =>
    obtain ⟨key, v⟩ := p
    rw [expandMapping, Dict.get?_cons, Dict.get?_cons]
    split_ifs
    · simp
    · exact ih

/-- Each value of the mapping has been expanded once, before the run. -/
theorem get?_expandMapping (supply : Supply) (calls : ℕ) {mapping : Dict String String}
    {k v : String} (h : mapping.get? k = some v) :
    ∃ drawn, (expandMapping supply calls mapping).1.get? k = some (expand supply drawn v).1 ∧
      (expand supply drawn v).2 ≤ (expandMapping supply calls mapping).2 := by
  induction mapping generalizing calls with
  | nil => cases h
  | cons p mapping ih =>
    obtain ⟨key, value⟩ := p
    rw [Dict.get?_cons] at h
    rw [expandMapping, Dict.get?_cons]
    split_ifs at h ⊢ with hkey
    · obtain rfl := Option.some.inj h
      exact ⟨calls, rfl, le_expandMapping supply _ mapping⟩
    · exact ih _ h

namespace SubstitutionEngine

variable {supply : Supply}

/-! ### What a walk keeps -/

section Walk

variable {R : SubstitutionEngine → SubstitutionEngine → Prop} (hrefl : ∀ subs, R subs subs)
  (htrans : ∀ a b c, R a b → R b c → R a c) (hswap : ∀ subs s, R subs (swap supply subs s).2)

include hrefl htrans

private theorem rel_walkList {vs : List Value}
    (h : ∀ v ∈ vs, ∀ subs, R subs (walk supply subs v).2) (subs : SubstitutionEngine) :
    R subs (walkList supply subs vs).2 := by
  induction vs generalizing subs with
  | nil => exact hrefl subs
  | cons v vs ih =>
    rw [walkList]
    exact htrans _ _ _ (h v (by simp) subs) (ih (fun w hw => h w (by simp [hw])) _)

/-- The relation goes through the items of a dictionary. -/
theorem rel_walkItems_of {items : List (String × Value)}
    (h : ∀ p ∈ items, ∀ subs, R subs (walk supply subs p.2).2) (subs : SubstitutionEngine) :
    R subs (walkItems supply subs items).2 := by
  induction items generalizing subs with
  | nil => exact hrefl subs
  | cons p items ih =>
    rw [walkItems]
    exact htrans _ _ _ (h p (by simp) subs) (ih (fun q hq => h q (by simp [hq])) _)

include hswap

/-- What holds from before to after each swap holds from before to after a walk. -/
theorem rel_walk (v : Value) (subs : SubstitutionEngine) : R subs (walk supply subs v).2 := by
  induction v using Value.induct generalizing subs with
  | hstr s => exact hswap subs s
  | hlist vs ih => exact rel_walkList hrefl htrans ih subs
  | hdict items ih => exact rel_walkItems_of hrefl htrans ih subs
  | hnone => exact hrefl subs
  | hbool b => exact hrefl subs
  | hint i => exact hrefl subs
  | hfloat x => exact hrefl subs

/-- So a walk of a payload's items is related to where it began. -/
theorem rel_walkItems (items : List (String × Value)) (subs : SubstitutionEngine) :
    R subs (walkItems supply subs items).2 :=
  rel_walkItems_of hrefl htrans (fun p _ => rel_walk hrefl htrans hswap p.2) subs

end Walk

/-- A later state of the same engine: the memory has only grown. -/
structure Later (subs later : SubstitutionEngine) : Prop where
  mapping : later.mapping = subs.mapping
  auto : later.auto = subs.auto
  generated : ∀ s r, subs.generated.get? s = some r → later.generated.get? s = some r

/-- An engine is as late as itself. -/
theorem Later.refl (subs : SubstitutionEngine) : Later subs subs := ⟨rfl, rfl, fun _ _ h => h⟩

/-- What comes later than later comes later. -/
theorem Later.trans {a b c : SubstitutionEngine} (hab : Later a b) (hbc : Later b c) :
    Later a c where
  mapping := hbc.mapping.trans hab.mapping
  auto := hbc.auto.trans hab.auto
  generated s r h := hbc.generated s r (hab.generated s r h)

/-- A swap only adds to what the engine remembers. -/
theorem later_swap (subs : SubstitutionEngine) (s : String) :
    Later subs (swap supply subs s).2 := by
  rw [swap]
  split
  · exact Later.refl subs
  split_ifs
  · exact Later.refl subs
  split
  · exact ⟨rfl, rfl, fun _ _ h => h⟩
  next hnew =>
    -- a string the memory holds is not the new one
    refine ⟨rfl, rfl, fun t r h => ?_⟩
    show (subs.generated.set s _).get? t = some r
    rw [Dict.get?_set, if_neg ?_]
    · exact h
    · rintro rfl
      rw [hnew] at h
      cases h

/-- So does the walk of a value. -/
theorem later_walk (subs : SubstitutionEngine) (v : Value) :
    Later subs (walk supply subs v).2 :=
  rel_walk Later.refl (fun _ _ _ => Later.trans) later_swap v subs

/-- So does the walk of a payload. -/
theorem later_walkItems (subs : SubstitutionEngine) (items : List (String × Value)) :
    Later subs (walkItems supply subs items).2 :=
  rel_walkItems Later.refl (fun _ _ _ => Later.trans) later_swap items subs

/-- The memory holds ids drawn from `base` on, and no two strings have the same one. -/
structure Memory (supply : Supply) (base : ℕ) (subs : SubstitutionEngine) : Prop where
  base_le : base ≤ subs.calls
  drawn : ∀ s r, subs.generated.get? s = some r →
    ∃ n, base ≤ n ∧ n < subs.calls ∧ r = supply.uuid n
  distinct : ∀ s t r, subs.generated.get? s = some r → subs.generated.get? t = some r → s = t

section Supply

variable (hsupply : Function.Injective supply.uuid) {base : ℕ}

include hsupply

/-- A swap draws an id that the memory does not hold yet. -/
theorem Memory.swap {subs : SubstitutionEngine} (h : Memory supply base subs) (s : String) :
    Memory supply base (swap supply subs s).2 := by
  have hold : ∀ t, subs.generated.get? t ≠ some (supply.uuid subs.calls) := by
    intro t ht
    obtain ⟨n, -, hn, heq⟩ := h.drawn t _ ht
    exact absurd (hsupply heq) (by omega)
  rw [SubstitutionEngine.swap]
  split
  · exact h
  split_ifs
  · exact h
  split
  · -- the id is drawn and thrown away
    refine ⟨h.base_le.trans (Nat.le_succ _), fun t r ht => ?_, h.distinct⟩
    obtain ⟨n, hbase, hn, heq⟩ := h.drawn t r ht
    exact ⟨n, hbase, by simp only; omega, heq⟩
  · refine ⟨h.base_le.trans (Nat.le_succ _), fun t r ht => ?_, fun t u r ht hu => ?_⟩
    · simp only [Dict.get?_set] at ht
      split_ifs at ht with hst
      · exact ⟨subs.calls, h.base_le, by simp, (Option.some.inj ht).symm⟩
      · obtain ⟨n, hbase, hn, heq⟩ := h.drawn t r ht
        exact ⟨n, hbase, by simp only; omega, heq⟩
    · simp only [Dict.get?_set] at ht hu
      split_ifs at ht hu with hst hsu hsu
      · exact hst.symm.trans hsu
      · exact absurd (hu.trans ht.symm) (hold u)
      · exact absurd (ht.trans hu.symm) (hold t)
      · exact h.distinct t u r ht hu

/-- A walk keeps the engine's memory one of fresh ids. -/
theorem Memory.walkItems {subs : SubstitutionEngine} (h : Memory supply base subs)
    (items : List (String × Value)) : Memory supply base (walkItems supply subs items).2 :=
  rel_walkItems (R := fun a b => Memory supply base a → Memory supply base b)
    (fun _ h => h) (fun _ _ _ hab hbc h => hbc (hab h)) (fun _ s h => h.swap hsupply s) items
    subs h

end Supply

/-! ### The function of a run -/

/-- The function on strings that an engine at the end of its run stands for. A string that the run
has not met would get an id of its own from beyond the ids drawn so far. -/
def replacementOf (supply : Supply) (code : String → ℕ) (last : SubstitutionEngine) (s : String) :
    String :=
  match last.mapping.get? s with
  | some replacement => replacement
  | none =>
    if last.auto = .off ∨ isUuid s = false then s
    else
      match last.generated.get? s with
      | some replacement => replacement
      | none => supply.uuid (last.calls + code s)

variable {code : String → ℕ}

/-- What a swap gives is what the engine stands for at any later time. -/
theorem swap_eq_replacementOf {subs last : SubstitutionEngine} {s : String}
    (h : Later (swap supply subs s).2 last) :
    (swap supply subs s).1 = replacementOf supply code last s := by
  have hlast : Later subs last := (later_swap subs s).trans h
  rw [replacementOf, hlast.mapping, hlast.auto]
  rw [swap] at h ⊢
  cases hmap : subs.mapping.get? s with
  | some r => simp only
  | none =>
    simp only [hmap] at h ⊢
    split_ifs at h ⊢ with hoff
    · rfl
    cases hget : subs.generated.get? s with
    | some r =>
      -- remembered from before
      simp only [hlast.generated s r hget]
    | none =>
      -- remembered from now on
      simp only [hget] at h ⊢
      have hnew : last.generated.get? s = some (supply.uuid subs.calls) :=
        h.generated s _ (by rw [Dict.get?_set, if_pos rfl])
      simp only [hnew]

private theorem walkList_eq_mapStrList {vs : List Value} {subs last : SubstitutionEngine}
    (hvs : ∀ v ∈ vs, ∀ subs, Later (walk supply subs v).2 last →
      (walk supply subs v).1 = v.mapStr (replacementOf supply code last))
    (h : Later (walkList supply subs vs).2 last) :
    (walkList supply subs vs).1 = Value.mapStrList (replacementOf supply code last) vs := by
  induction vs generalizing subs with
  | nil => rfl
  | cons v vs ih =>
    rw [walkList] at h ⊢
    -- the rest of the list is walked after the head
    have hhead : Later (walk supply subs v).2 last :=
      (rel_walkList Later.refl (fun _ _ _ => Later.trans)
        (fun w _ subs => later_walk subs w) _).trans h
    rw [Value.mapStrList, hvs v (by simp) subs hhead, ih (fun w hw => hvs w (by simp [hw])) h]

private theorem walkItems_eq_mapStrItems_of {items : List (String × Value)}
    {subs last : SubstitutionEngine}
    (hitems : ∀ p ∈ items, ∀ subs, Later (walk supply subs p.2).2 last →
      (walk supply subs p.2).1 = p.2.mapStr (replacementOf supply code last))
    (h : Later (walkItems supply subs items).2 last) :
    (walkItems supply subs items).1 = Value.mapStrItems (replacementOf supply code last) items := by
  induction items generalizing subs with
  | nil => rfl
  | cons p items ih =>
    rw [walkItems] at h ⊢
    have hhead : Later (walk supply subs p.2).2 last := (later_walkItems _ items).trans h
    rw [Value.mapStrItems, hitems p (by simp) subs hhead,
      ih (fun q hq => hitems q (by simp [hq])) h]

/-- A walk puts the function to every string of the value. -/
theorem walk_eq_mapStr {v : Value} {subs last : SubstitutionEngine}
    (h : Later (walk supply subs v).2 last) :
    (walk supply subs v).1 = v.mapStr (replacementOf supply code last) := by
  induction v using Value.induct generalizing subs with
  | hstr s =>
    rw [walk] at h ⊢
    rw [swap_eq_replacementOf h, Value.mapStr]
  | hlist vs ih =>
    rw [walk] at h ⊢
    rw [Value.mapStr, walkList_eq_mapStrList (fun v hv _ => ih v hv) h]
  | hdict items ih =>
    rw [walk] at h ⊢
    rw [Value.mapStr, walkItems_eq_mapStrItems_of (fun p hp _ => ih p hp) h]
  | hnone => rfl
  | hbool b => rfl
  | hint i => rfl
  | hfloat x => rfl

/-- The walk of a payload renames it, by what the engine remembers at any later time. -/
theorem walkItems_eq_mapStrItems {items : List (String × Value)} {subs last : SubstitutionEngine}
    (h : Later (walkItems supply subs items).2 last) :
    (walkItems supply subs items).1 = Value.mapStrItems (replacementOf supply code last) items :=
  walkItems_eq_mapStrItems_of (fun _ _ _ => walk_eq_mapStr) h

/-- With nothing to substitute the function keeps every string. -/
theorem replacementOf_eq_self (supply : Supply) (code : String → ℕ) {last : SubstitutionEngine}
    (hmap : last.mapping = [])
    (hauto : last.auto = .off) (s : String) : replacementOf supply code last s = s := by
  rw [replacementOf, hmap, Dict.get?_nil]
  simp [hauto]

/-- `apply` only adds to what the engine remembers. -/
theorem later_apply (subs : SubstitutionEngine) (payload : Payload) :
    Later subs (apply supply subs payload).2 := by
  rw [apply]
  split_ifs
  · exact Later.refl subs
  · exact later_walkItems subs payload.items

/-- `apply` puts the function to every string of the payload, also when it returns early. -/
theorem apply_eq_mapStr {subs last : SubstitutionEngine} {payload : Payload}
    (h : Later (apply supply subs payload).2 last) :
    (apply supply subs payload).1 = payload.mapStr (replacementOf supply code last) := by
  have hlast : Later subs last := (later_apply subs payload).trans h
  apply Payload.ext
  rw [apply] at h ⊢
  split_ifs at h ⊢ with hearly
  · -- with nothing to substitute the payload is returned as it is
    have hself := Value.mapStr_eq_self
      (replacementOf_eq_self supply code (hlast.mapping.trans hearly.1)
        (hlast.auto.trans hearly.2)) (.dict payload.items)
    rw [Value.mapStr] at hself
    exact (Value.dict.inj hself).symm
  · exact walkItems_eq_mapStrItems h

/-- The engine after the payloads. -/
def afterAll (supply : Supply) (subs : SubstitutionEngine) : List Payload → SubstitutionEngine
  | [] => subs
  | payload :: payloads => afterAll supply (apply supply subs payload).2 payloads

/-- A run over many payloads only adds to what the engine remembers. -/
theorem later_afterAll (subs : SubstitutionEngine) (payloads : List Payload) :
    Later subs (afterAll supply subs payloads) := by
  induction payloads generalizing subs with
  | nil => exact Later.refl subs
  | cons payload payloads ih => exact (later_apply subs payload).trans (ih _)

/-- A whole run renames every payload by what the engine remembers at its end. -/
theorem applyAll_eq_map (subs : SubstitutionEngine) (payloads : List Payload) :
    applyAll supply subs payloads = payloads.map
      (Payload.mapStr (replacementOf supply code (afterAll supply subs payloads))) := by
  induction payloads generalizing subs with
  | nil => rfl
  | cons payload payloads ih =>
    rw [applyAll, ih, List.map_cons, apply_eq_mapStr (later_afterAll _ payloads)]
    rfl

/-- A whole run keeps the engine's memory one of fresh ids. -/
theorem Memory.afterAll (hsupply : Function.Injective supply.uuid) {base : ℕ}
    {subs : SubstitutionEngine} (h : Memory supply base subs) (payloads : List Payload) :
    Memory supply base (afterAll supply subs payloads) := by
  induction payloads generalizing subs with
  | nil => exact h
  | cons payload payloads ih =>
    refine ih ?_
    rw [apply]
    split_ifs
    · exact h
    · exact h.walkItems hsupply payload.items

/-- An engine starts with an empty memory. -/
theorem memory_create (mapping : Dict String String) (auto : AutoMode) :
    Memory supply (create supply mapping auto).calls (create supply mapping auto) where
  base_le := le_refl _
  drawn s r h := by cases h
  distinct s t r h := by cases h

/-! ### One renaming for a run -/

/-- What one renaming of the strings does: it follows the mapping, whose values have been expanded
once, gives every other UUID-shaped string an id of its own in auto mode, and keeps the rest. -/
structure IsRenaming (supply : Supply) (mapping : Dict String String) (auto : AutoMode)
    (f : String → String) : Prop where
  mapped : ∀ k v, mapping.get? k = some v →
    (create supply mapping auto).mapping.get? k = some (f k) ∧
      ∃ calls, f k = (expand supply calls v).1 ∧
        (expand supply calls v).2 ≤ (create supply mapping auto).calls
  fresh : auto = .freshIds → ∀ s, mapping.get? s = none → isUuid s = true →
    ∃ n, (create supply mapping auto).calls ≤ n ∧ f s = supply.uuid n
  distinct : auto = .freshIds → ∀ s t, mapping.get? s = none → isUuid s = true →
    mapping.get? t = none → isUuid t = true → f s = f t → s = t
  other : ∀ s, mapping.get? s = none → auto = .off ∨ isUuid s = false → f s = s

section IsRenaming

variable {last : SubstitutionEngine} {mapping : Dict String String} {auto : AutoMode}

/-- What an unmapped UUID-shaped string becomes in auto mode: what the memory holds for it, or an
id drawn after all of these. -/
private theorem replacementOf_fresh (code : String → ℕ)
    (hlast : Later (create supply mapping auto) last)
    (hauto : auto = .freshIds) {s : String} (hmap : mapping.get? s = none)
    (hs : isUuid s = true) :
    last.generated.get? s = some (replacementOf supply code last s) ∨
      replacementOf supply code last s = supply.uuid (last.calls + code s) := by
  have hnone : last.mapping.get? s = none := by
    rw [hlast.mapping]
    exact get?_expandMapping_eq_none.mpr hmap
  have hon : ¬(last.auto = .off ∨ isUuid s = false) := by
    rw [hlast.auto]
    simp [create, hauto, hs]
  rw [replacementOf]
  simp only [hnone, if_neg hon]
  -- met before, it has the id it was given then; else the next free one
  split
  next r hr => exact .inl hr
  next => exact .inr rfl

/-- The function read off a state with such a memory is one renaming. -/
theorem isRenaming_replacementOf (hsupply : Function.Injective supply.uuid)
    (hcode : Function.Injective code) (hlast : Later (create supply mapping auto) last)
    (hmem : Memory supply (create supply mapping auto).calls last) :
    IsRenaming supply mapping auto (replacementOf supply code last) where
  mapped k v hk := by
    obtain ⟨drawn, hget, hle⟩ := get?_expandMapping supply 0 hk
    have hval : replacementOf supply code last k = (expand supply drawn v).1 := by
      rw [replacementOf, hlast.mapping]
      show (match (expandMapping supply 0 mapping).1.get? k with
        | some replacement => replacement
        | none => _) = _
      rw [hget]
    rw [hval]
    exact ⟨hget, drawn, rfl, hle⟩
  fresh hauto s hmap hs := by
    rcases replacementOf_fresh code hlast hauto hmap hs with hget | heq
    · obtain ⟨n, hn, -, heq⟩ := hmem.drawn s _ hget
      exact ⟨n, hn, heq⟩
    · exact ⟨last.calls + code s, hmem.base_le.trans (Nat.le_add_right _ _), heq⟩
  distinct hauto s t hmaps hs hmapt ht hst := by
    -- two strings with one replacement: both met, both not met, or one of each
    rcases replacementOf_fresh code hlast hauto hmaps hs with hgets | hs <;>
      rcases replacementOf_fresh code hlast hauto hmapt ht with hgett | ht
    · rw [hst] at hgets
      exact hmem.distinct s t _ hgets hgett
    · -- the ids in the memory come before the ids of the strings not met
      obtain ⟨n, -, hn, heq⟩ := hmem.drawn s _ hgets
      exact absurd (hsupply (heq.symm.trans (hst.trans ht))) (by omega)
    · obtain ⟨n, -, hn, heq⟩ := hmem.drawn t _ hgett
      exact absurd (hsupply (heq.symm.trans (hst.symm.trans hs))) (by omega)
    · have hsum : last.calls + code s = last.calls + code t :=
        hsupply (hs.symm.trans (hst.trans ht))
      exact hcode (by omega)
  other s hmap hs := by
    have hnone : last.mapping.get? s = none := by
      rw [hlast.mapping]
      exact get?_expandMapping_eq_none.mpr hmap
    have hoff : last.auto = .off ∨ isUuid s = false := by
      rw [hlast.auto]
      exact hs
    rw [replacementOf]
    simp only [hnone, if_pos hoff]

end IsRenaming

/-- Whatever the mapping and the mode, the payloads of a run come out as if one renaming of strings
had been put to each of them. -/
theorem exists_applyAll_eq_map (supply : Supply) (hsupply : Function.Injective supply.uuid)
    (mapping : Dict String String) (auto : AutoMode) (payloads : List Payload) :
    ∃ f : String → String, IsRenaming supply mapping auto f ∧
      applyAll supply (create supply mapping auto) payloads = payloads.map (Payload.mapStr f) := by
  -- a place beyond the ids drawn for every string that the run has not met
  have hchar : Countable Char := Function.Injective.countable (f := Char.toNat)
    fun _ _ h => Char.toNat_inj.mp h
  have hcount : Countable String := Function.Injective.countable (f := String.toList)
    fun _ _ h => String.toList_inj.mp h
  obtain ⟨code, hcode⟩ := exists_injective_nat String
  exact ⟨_, isRenaming_replacementOf hsupply hcode (later_afterAll _ payloads)
    ((memory_create mapping auto).afterAll hsupply payloads), applyAll_eq_map _ payloads⟩

/-- A supply that counts its ids up in the last digit, and after sixteen of them makes them
longer. -/
def countingSupply : Supply where
  uuid n := "00000000-0000-4000-8000-00000000000" ++
    String.ofList (Nat.digitChar (n % 16) :: List.replicate (n / 16) '0')
  nowIso _ := "2026-01-01T00:00:00+00:00"
  nowNs _ := 0

/-- The counting supply never repeats itself. -/
theorem countingSupply_injective : Function.Injective countingSupply.uuid := by
  intro m n h
  have hdigits : ∀ a < 16, ∀ b < 16, Nat.digitChar a = Nat.digitChar b → a = b := by decide
  obtain ⟨hlast, hrest⟩ :=
    List.cons.inj (String.ofList_injective ((String.append_right_inj _).mp h))
  have hmod : m % 16 = n % 16 :=
    hdigits _ (Nat.mod_lt _ (by omega)) _ (Nat.mod_lt _ (by omega)) hlast
  have hdiv : m / 16 = n / 16 := by simpa using congrArg List.length hrest
  omega

/-- Two requests of a run that name one order, the second also an order the caller maps. -/
def orderPayloads : List Payload :=
  [.ofEntries [("path", .ofString "/orders"),
      ("order", .ofString "3f2b8c1e-9a47-4d65-8b0f-1c2d3e4f5a6b")] (by decide),
    .ofEntries [("order", .ofString "3F2B8C1E-9a47-4d65-8b0f-1c2d3e4f5a6b"),
      ("refund", .ofString "3f2b8c1e-9a47-4d65-8b0f-1c2d3e4f5a6b"),
      ("old", .ofString "ord_9f2c")] (by decide)]

theorem exists_applyAll_eq_map_orders :
    ∃ f : String → String,
      IsRenaming countingSupply [("ord_9f2c", "$\x7buuid\x7d")] .freshIds f ∧
        applyAll countingSupply
          (create countingSupply [("ord_9f2c", "$\x7buuid\x7d")] .freshIds) orderPayloads =
        orderPayloads.map (Payload.mapStr f) :=
  exists_applyAll_eq_map countingSupply countingSupply_injective
    [("ord_9f2c", "$\x7buuid\x7d")] .freshIds orderPayloads

end SubstitutionEngine

end InfraReplay
