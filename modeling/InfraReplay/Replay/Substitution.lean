import InfraReplay.Comparison.Normalize

/-!
# Substitution of dynamic values

The engine that rewrites the strings of a request before it is sent: first the caller's mapping,
whose templates are expanded once, then in auto mode a fresh UUID for every UUID-shaped string.
What `uuid4` and the clock give is a `Supply`, by the number of the call.
-/

namespace InfraReplay

open Python

/-- `AutoMode`. -/
inductive AutoMode where
  | off
  | freshIds
  deriving DecidableEq

/-- What the calls to `uuid4` and to the clock return, each by its number. -/
structure Supply where
  uuid : ℕ → String
  nowIso : ℕ → String
  nowNs : ℕ → ℤ

/-! ### Templates -/

/-- `\w`. Only the three known names have an effect, so characters beyond ASCII need not count. -/
def isWord (c : Char) : Bool := c.isAlphanum || c = '_'

/-- The name of a template that starts here. -/
def templateName : List Char → Option (List Char)
  | '$' :: '\x7b' :: cs =>
    if cs.takeWhile isWord ≠ [] ∧ (cs.dropWhile isWord).head? = some '\x7d' then
      some (cs.takeWhile isWord)
    else none
  | _ => none

/-- `_template_value`, with the number of the next call. -/
def templateValue (supply : Supply) (calls : ℕ) (name : String) : String × ℕ :=
  if name = "uuid" then (supply.uuid calls, calls + 1)
  else if name = "now_iso" then (supply.nowIso calls, calls + 1)
  else if name = "now_ns" then (toString (supply.nowNs calls), calls + 1)
  else ("$\x7b" ++ name ++ "\x7d", calls)

/-- The scan of `_TEMPLATE_RE.sub`; `skip` characters belong to the template just replaced. -/
def expandChars (supply : Supply) : ℕ → ℕ → List Char → List Char × ℕ
  | _, calls, [] => ([], calls)
  | skip + 1, calls, _ :: cs => expandChars supply skip calls cs
  | 0, calls, c :: cs =>
    match templateName (c :: cs) with
    | some name =>
      let (value, calls) := templateValue supply calls (String.ofList name)
      -- the dollar sign is gone, the two braces and the name are left
      let (rest, calls) := expandChars supply (name.length + 2) calls cs
      (value.toList ++ rest, calls)
    | none =>
      let (rest, calls) := expandChars supply 0 calls cs
      (c :: rest, calls)

/-- `_expand`. -/
def expand (supply : Supply) (calls : ℕ) (value : String) : String × ℕ :=
  let (cs, calls) := expandChars supply 0 calls value.toList
  (String.ofList cs, calls)

/-- `{k: self._expand(v) for k, v in mapping.items()}`. -/
def expandMapping (supply : Supply) : ℕ → Dict String String → Dict String String × ℕ
  | calls, [] => ([], calls)
  | calls, (k, v) :: mapping =>
    let (value, calls) := expand supply calls v
    let (rest, calls) := expandMapping supply calls mapping
    ((k, value) :: rest, calls)

/-! ### The engine -/

/-- A `SubstitutionEngine`: its arguments and its memory of one run. -/
structure SubstitutionEngine where
  mapping : Dict String String
  auto : AutoMode
  generated : Dict String String := []
  /-- The number of the next call to the supply. -/
  calls : ℕ := 0

namespace SubstitutionEngine

variable (supply : Supply)

/-- `__init__`. -/
def create (mapping : Dict String String) (auto : AutoMode) : SubstitutionEngine where
  mapping := (expandMapping supply 0 mapping).1
  auto := auto
  calls := (expandMapping supply 0 mapping).2

/-- `_swap`. The argument of `setdefault` is made whether or not it is used. -/
def swap (subs : SubstitutionEngine) (value : String) : String × SubstitutionEngine :=
  match subs.mapping.get? value with
  | some replacement => (replacement, subs)
  | none =>
    if subs.auto = .off ∨ isUuid value = false then (value, subs)
    else
      match subs.generated.get? value with
      -- a value seen before in the run gets the same replacement
      | some replacement => (replacement, { subs with calls := subs.calls + 1 })
      | none =>
        (supply.uuid subs.calls,
          { subs with
            generated := subs.generated.set value (supply.uuid subs.calls)
            calls := subs.calls + 1 })

mutual

/-- `_walk`. -/
def walk (subs : SubstitutionEngine) : Value → Value × SubstitutionEngine
  | .dict items => ((.dict (walkItems subs items).1), (walkItems subs items).2)
  | .list vs => ((.list (walkList subs vs).1), (walkList subs vs).2)
  | .str s => (.str (swap supply subs s).1, (swap supply subs s).2)
  | v => (v, subs)

def walkList (subs : SubstitutionEngine) : List Value → List Value × SubstitutionEngine
  | [] => ([], subs)
  | v :: vs =>
    ((walk subs v).1 :: (walkList (walk subs v).2 vs).1, (walkList (walk subs v).2 vs).2)

def walkItems (subs : SubstitutionEngine) :
    List (String × Value) → List (String × Value) × SubstitutionEngine
  | [] => ([], subs)
  | (k, v) :: items =>
    ((k, (walk subs v).1) :: (walkItems (walk subs v).2 items).1,
      (walkItems (walk subs v).2 items).2)

end

variable {supply}

theorem map_fst_walkItems (subs : SubstitutionEngine) (items : List (String × Value)) :
    (walkItems supply subs items).1.map Prod.fst = items.map Prod.fst := by
  induction items generalizing subs with
  | nil => rfl
  | cons p items ih =>
    rw [walkItems, List.map_cons, ih, List.map_cons]

/-- Where the values of a rewritten dictionary come from. -/
theorem mem_walkItems {subs : SubstitutionEngine} {items : List (String × Value)}
    {p : String × Value} (h : p ∈ (walkItems supply subs items).1) :
    ∃ q ∈ items, ∃ subs', p.2 = (walk supply subs' q.2).1 := by
  induction items generalizing subs with
  | nil => cases h
  | cons q items ih =>
    rw [walkItems] at h
    rcases List.mem_cons.mp h with rfl | h
    · exact ⟨q, by simp, subs, rfl⟩
    · obtain ⟨q', hq', subs', hp⟩ := ih h
      exact ⟨q', List.mem_cons_of_mem _ hq', subs', hp⟩

/-- Where the elements of a rewritten list come from. -/
theorem mem_walkList {subs : SubstitutionEngine} {vs : List Value} {w : Value}
    (h : w ∈ (walkList supply subs vs).1) :
    ∃ v ∈ vs, ∃ subs', w = (walk supply subs' v).1 := by
  induction vs generalizing subs with
  | nil => cases h
  | cons v vs ih =>
    rw [walkList] at h
    rcases List.mem_cons.mp h with rfl | h
    · exact ⟨v, by simp, subs, rfl⟩
    · obtain ⟨v', hv', subs', hw⟩ := ih h
      exact ⟨v', List.mem_cons_of_mem _ hv', subs', hw⟩

/-- Rewriting keeps the keys of every dictionary. -/
theorem wf_walk (subs : SubstitutionEngine) {v : Value} (h : v.wf = true) :
    (walk supply subs v).1.wf = true := by
  induction v using Value.induct generalizing subs with
  | hdict items ih =>
    -- the engine moves on from value to value, so `ih` is used at a later state of it
    obtain ⟨hnd, hvals⟩ := Value.wf_dict.mp h
    rw [walk, Value.wf_dict, map_fst_walkItems]
    refine ⟨hnd, fun p hp => ?_⟩
    obtain ⟨q, hq, subs', hp⟩ := mem_walkItems hp
    rw [hp]
    exact ih q hq subs' (hvals q hq)
  | hlist vs ih =>
    rw [walk, Value.wf_list]
    intro w hw
    obtain ⟨v, hv, subs', rfl⟩ := mem_walkList hw
    exact ih v hv subs' (Value.wf_list.mp h v hv)
  | hnone => rfl
  | hbool b => rfl
  | hint i => rfl
  | hfloat f => rfl
  | hstr s => rfl

/-- `apply`. -/
def apply (supply : Supply) (subs : SubstitutionEngine) (payload : Payload) :
    Payload × SubstitutionEngine :=
  if subs.mapping = [] ∧ subs.auto = .off then (payload, subs)
  else
    ({ items := (walkItems supply subs payload.items).1
       wf := by
         have hwf : (walk supply subs (.dict payload.items)).1.wf = true :=
           wf_walk subs payload.wf
         rwa [walk] at hwf },
      (walkItems supply subs payload.items).2)

/-- `[subs.apply(r.payload) for r in requests]`. -/
def applyAll (supply : Supply) (subs : SubstitutionEngine) : List Payload → List Payload
  | [] => []
  | payload :: payloads =>
    (apply supply subs payload).1 :: applyAll supply (apply supply subs payload).2 payloads

@[simp]
theorem length_applyAll (subs : SubstitutionEngine) (payloads : List Payload) :
    (applyAll supply subs payloads).length = payloads.length := by
  induction payloads generalizing subs with
  | nil => rfl
  | cons payload payloads ih => rw [applyAll, List.length_cons, ih, List.length_cons]

end SubstitutionEngine

/-- Templates are expanded, other text is left alone. -/
example : (expand ⟨fun _ => "u-1", fun _ => "t", fun _ => 7⟩ 0
    "a$\x7buuid\x7d-$\x7bnow_ns\x7d $\x7bx\x7d").1 = "au-1-7 $\x7bx\x7d" := by decide +kernel

end InfraReplay
