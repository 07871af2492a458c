import InfraReplay.Python.Value

/-!
# Values that agree place by place

Two JSON documents agree when lists have equal lengths, objects have the same keys, and a relation
`leaf` holds wherever something else stands (`Value.Agrees`). The keys that `keep` rejects are left
out at every depth. `Value.facing` lists the pairs that decide it: `agrees_iff_forall_facing`.

`is` or `==` is the agreement at `EqAtom` (`same_iff_agrees`), where a boolean is the number it
counts as; `==` differs from it only in that no NaN is equal to a value (`eq_iff_agrees`).
`SameAtom` keeps booleans and numbers apart, as JSON does.
-/

namespace Python

namespace Value

mutual

/-- The documents agree at every place under a kept key. -/
def Agrees (keep : String → Bool) (leaf : Value → Value → Prop) : Value → Value → Prop
  | .list vs, .list ws => AgreesList keep leaf vs ws
  | .dict items, .dict items' =>
    AgreesItems keep leaf items items' ∧ ∀ k ∈ Dict.keys items', keep k = true → k ∈ Dict.keys items
  | v, w => leaf v w

def AgreesList (keep : String → Bool) (leaf : Value → Value → Prop) :
    List Value → List Value → Prop
  | [], [] => True
  | v :: vs, w :: ws => Agrees keep leaf v w ∧ AgreesList keep leaf vs ws
  | _, _ => False

/-- Every kept item of the first object has one in the second that agrees with it. -/
def AgreesItems (keep : String → Bool) (leaf : Value → Value → Prop) :
    List (String × Value) → List (String × Value) → Prop
  | [], _ => True
  | (k, v) :: items, items' =>
    (keep k = true → ∃ w, Dict.get? items' k = some w ∧ Agrees keep leaf v w) ∧
      AgreesItems keep leaf items items'

end

/-- The two objects have the same kept keys. -/
def SameKeys (keep : String → Bool) (items items' : List (String × Value)) : Prop :=
  (∀ k ∈ Dict.keys items, keep k = true → k ∈ Dict.keys items') ∧
    ∀ k ∈ Dict.keys items', keep k = true → k ∈ Dict.keys items

instance (keep : String → Bool) (items items' : List (String × Value)) :
    Decidable (SameKeys keep items items') := by
  unfold SameKeys
  infer_instance

mutual

/-- The pairs of values that stand at one place of two documents, as deep as their lists and
objects match. -/
def facing (keep : String → Bool) : Value → Value → List (Value × Value)
  | .list vs, .list ws =>
    if vs.length = ws.length then facingList keep vs ws else [(.list vs, .list ws)]
  | .dict items, .dict items' =>
    if SameKeys keep items items' then facingItems keep items items'
    else [(.dict items, .dict items')]
  | v, w => [(v, w)]

def facingList (keep : String → Bool) : List Value → List Value → List (Value × Value)
  | v :: vs, w :: ws => facing keep v w ++ facingList keep vs ws
  | _, _ => []

def facingItems (keep : String → Bool) :
    List (String × Value) → List (String × Value) → List (Value × Value)
  | [], _ => []
  | (k, v) :: items, items' =>
    (if keep k = true then
      match Dict.get? items' k with
      | some w => facing keep v w
      | Option.none => []
    else []) ++ facingItems keep items items'

end

section Agrees

variable {keep : String → Bool} {leaf leaf' : Value → Value → Prop}

/-- Two dictionaries agree when every key that is kept has values that agree. -/
theorem agreesItems_iff {items items' : List (String × Value)} :
    AgreesItems keep leaf items items' ↔
      ∀ p ∈ items, keep p.1 = true →
        ∃ w, Dict.get? items' p.1 = some w ∧ Agrees keep leaf p.2 w := by
  induction items with
  | nil => simp [AgreesItems]
  | cons p items ih =>
    obtain ⟨k, v⟩ := p
    rw [AgreesItems, ih, List.forall_mem_cons]

/-- Lists that agree have one length. -/
theorem agreesList_length {vs ws : List Value} (h : AgreesList keep leaf vs ws) :
    vs.length = ws.length := by
  induction vs generalizing ws with
  | nil =>
    cases ws with
    | nil => rfl
    | cons w ws => exact h.elim
  | cons v vs ih =>
    cases ws with
    | nil => exact h.elim
    | cons w ws => exact congrArg (· + 1) (ih h.2)

/-- What agrees place by place agrees under any relation that follows from the one at hand. -/
private theorem agreesList_iff_forall {vs ws : List Value} (hlen : vs.length = ws.length)
    (ih : ∀ v ∈ vs, ∀ w, Agrees keep leaf v w ↔ ∀ p ∈ facing keep v w, leaf p.1 p.2) :
    AgreesList keep leaf vs ws ↔ ∀ p ∈ facingList keep vs ws, leaf p.1 p.2 := by
  induction vs generalizing ws with
  | nil =>
    cases ws with
    | nil => simp [AgreesList, facingList]
    | cons w ws => simp at hlen
  | cons v vs ihvs =>
    cases ws with
    | nil => simp at hlen
    | cons w ws =>
      rw [AgreesList, facingList, List.forall_mem_append, ih v (by simp),
        ihvs (by simpa using hlen) fun v' hv' => ih v' (by simp [hv'])]

private theorem agreesItems_iff_forall {items items' : List (String × Value)}
    (hkeys : ∀ k ∈ Dict.keys items, keep k = true → k ∈ Dict.keys items')
    (ih : ∀ p ∈ items, ∀ w, Agrees keep leaf p.2 w ↔ ∀ q ∈ facing keep p.2 w, leaf q.1 q.2) :
    AgreesItems keep leaf items items' ↔ ∀ p ∈ facingItems keep items items', leaf p.1 p.2 := by
  induction items with
  | nil => simp [AgreesItems, facingItems]
  | cons p items ihitems =>
    obtain ⟨k, v⟩ := p
    rw [AgreesItems, facingItems, List.forall_mem_append,
      ihitems (fun k' hk' => hkeys k' (List.mem_cons_of_mem _ hk'))
        fun q hq => ih q (List.mem_cons_of_mem _ hq)]
    refine and_congr_left fun _ => ?_
    by_cases hk : keep k = true
    · -- a kept key has a value on the other side
      obtain ⟨w, hw⟩ := Dict.exists_get?_of_mem_keys (hkeys k (by simp [Dict.keys]) hk)
      simp [hk, hw, ih (k, v) (by simp) w]
    · simp [hk]

/-- Two documents agree when the relation holds of every pair that faces each other. -/
theorem agrees_iff_forall_facing (leaf : Value → Value → Prop)
    (hlist : ∀ vs ws, ¬ leaf (.list vs) (.list ws))
    (hdict : ∀ items items', ¬ leaf (.dict items) (.dict items')) (v w : Value) :
    Agrees keep leaf v w ↔ ∀ p ∈ facing keep v w, leaf p.1 p.2 := by
  induction v using Value.induct generalizing w with
  | hlist vs ih =>
    cases w with
    | list ws =>
      rw [Agrees, facing]
      split_ifs with hlen
      · exact agreesList_iff_forall hlen ih
      · -- the lists themselves are the pair, and they do not agree
        simp only [List.forall_mem_singleton, hlist, iff_false]
        exact fun h => hlen (agreesList_length h)
    | _ => simp [Agrees, facing]
  | hdict items ih =>
    cases w with
    | dict items' =>
      rw [Agrees, facing]
      split_ifs with hkeys
      · rw [and_iff_left hkeys.2]
        exact agreesItems_iff_forall hkeys.1 ih
      · -- the same for dictionaries: if they agreed, the kept keys would be the same
        simp only [List.forall_mem_singleton, hdict, iff_false]
        rintro ⟨hitems, hback⟩
        refine hkeys ⟨fun k hk hkeep => ?_, hback⟩
        obtain ⟨p, hp, rfl⟩ := List.mem_map.mp hk
        obtain ⟨w, hw, -⟩ := agreesItems_iff.mp hitems p hp hkeep
        exact Dict.mem_keys_of_get?_eq_some hw
    | _ => simp [Agrees, facing]
  | hnone => cases w <;> simp [Agrees, facing]
  | hbool b => cases w <;> simp [Agrees, facing]
  | hint i => cases w <;> simp [Agrees, facing]
  | hfloat f => cases w <;> simp [Agrees, facing]
  | hstr s => cases w <;> simp [Agrees, facing]

end Agrees

/-! ### Atoms -/

/-- The number an integer or a float is. -/
def jsonNumber? : Value → Option PyFloat
  | .int i => some (.finite i)
  | .float f => some f
  | _ => Option.none

/-- Two atoms that are one object or that `==` identifies, for a relation on strings in the place
of equality. -/
def EqAtom (strings : String → String → Prop) : Value → Value → Prop
  | .none, .none => True
  | .str s, .str t => strings s t
  | v, w => ∃ a ∈ v.number?, a ∈ w.number?

/-- Two atoms that are one JSON value, for a relation on strings in the place of equality. -/
def SameAtom (strings : String → String → Prop) : Value → Value → Prop
  | .none, .none => True
  | .bool a, .bool b => a = b
  | .str s, .str t => strings s t
  | v, w => ∃ a ∈ v.jsonNumber?, a ∈ w.jsonNumber?

/-- A boolean faces a number it counts as. -/
def BoolAsNumber : Value → Value → Prop
  | .bool b, w => .finite (if b then 1 else 0) ∈ w.jsonNumber?
  | v, .bool b => .finite (if b then 1 else 0) ∈ v.jsonNumber?
  | _, _ => False

/-- What `==` identifies is the same value, or a boolean and the number it counts as. -/
theorem eqAtom_iff {strings : String → String → Prop} {v w : Value} :
    EqAtom strings v w ↔ SameAtom strings v w ∨ BoolAsNumber v w := by
  cases v <;> cases w <;> simp [EqAtom, SameAtom, BoolAsNumber, number?, jsonNumber?]
  case int.bool => exact eq_comm
  case float.bool => exact eq_comm
  case bool.bool a b => cases a <;> cases b <;> simp

private theorem eqList_iff {vs ws : List Value}
    (ih : ∀ v ∈ vs, ∀ w ∈ ws, v.same w = true ↔ Agrees (fun _ => true) (EqAtom (· = ·)) v w) :
    eqList vs ws = true ↔ AgreesList (fun _ => true) (EqAtom (· = ·)) vs ws := by
  induction vs generalizing ws with
  | nil => cases ws <;> simp [eqList, AgreesList]
  | cons v vs ihvs =>
    cases ws with
    | nil => simp [eqList, AgreesList]
    | cons w ws =>
      rw [eqList, ← same, AgreesList, Bool.and_eq_true, ih v (by simp) w (by simp),
        ihvs fun v' hv' w' hw' => ih v' (by simp [hv']) w' (by simp [hw'])]

private theorem eqItems_iff {items items' : List (String × Value)} :
    eqItems items items' = true ↔
      ∀ p ∈ items, ∃ w, Dict.get? items' p.1 = some w ∧ p.2.same w = true := by
  rw [eqItems_eq, List.all_eq_true]
  refine forall₂_congr fun p _ => ?_
  cases Dict.get? items' p.1 <;> simp

/-- With distinct keys on both sides, as many items and a partner for each are the same keys. -/
private theorem keys_subset_of_length {items items' : List (String × Value)}
    (hnd : (Dict.keys items).Nodup) (hsub : Dict.keys items ⊆ Dict.keys items')
    (hlen : items.length = items'.length) : Dict.keys items' ⊆ Dict.keys items := by
  have hlen' : (Dict.keys items').length ≤ (Dict.keys items).length := by
    simp [Dict.keys, hlen]
  exact ((List.subperm_of_subset hnd hsub).perm_of_length_le hlen').symm.subset

private theorem isNan_eq (v : Value) : v.isNan = decide (v.number? = some .nan) := by
  cases v with
  | float f => cases f <;> simp [isNan, number?]
  | _ => simp [isNan, number?]

private theorem eq_number {v w : Value} {a : PyFloat} (hv : v.number? = some a) :
    v.eq w = (w.number?.map a.eq).getD false := by
  cases v with
  | bool b => cases hv; cases w <;> simp [eq, number?]
  | int i => cases hv; cases w <;> simp [eq, number?]
  | float f => cases hv; cases w <;> simp [eq, number?]
  | _ => cases hv

/-- A number is the same as a value that stands for it, a NaN included. -/
private theorem same_number {v w : Value} {a : PyFloat} (hv : v.number? = some a) :
    v.same w = decide (w.number? = some a) := by
  rw [same, eq_number hv, isNan_eq, isNan_eq, hv]
  cases w.number? with
  | none => simp
  | some b => cases a <;> cases b <;> simp [PyFloat.eq, eq_comm, Bool.beq_eq_decide_eq]

/-- No list is a NaN. -/
private theorem same_list (vs ws : List Value) :
    (Value.list vs).same (.list ws) = eqList vs ws := by
  rw [same, eq]
  rfl

private theorem same_dict (items items' : List (String × Value)) :
    (Value.dict items).same (.dict items') =
      (items.length == items'.length && eqItems items items') := by
  rw [same, eq]
  rfl

/-- `is` or `==` on documents with distinct keys. -/
theorem same_iff_agrees {v w : Value} (hv : v.wf = true) (hw : w.wf = true) :
    v.same w = true ↔ Agrees (fun _ => true) (EqAtom (· = ·)) v w := by
  induction v using Value.induct generalizing w with
  | hlist vs ih =>
    cases w with
    | list ws =>
      rw [same_list, Agrees]
      exact eqList_iff fun v hv' w hw' => ih v hv' (wf_list.mp hv v hv') (wf_list.mp hw w hw')
    | _ => simp [same, eq, isNan, Agrees, EqAtom, number?]
  | hdict items ih =>
    cases w with
    | dict items' =>
      obtain ⟨hnd, hvals⟩ := wf_dict.mp hv
      obtain ⟨hnd', hvals'⟩ := wf_dict.mp hw
      rw [same_dict, Agrees, Bool.and_eq_true, eqItems_iff, agreesItems_iff]
      -- on either side every item has a partner that agrees with it
      have hitem : ∀ p ∈ items, ((∃ w, Dict.get? items' p.1 = some w ∧ p.2.same w = true) ↔
          (true = true → ∃ w, Dict.get? items' p.1 = some w ∧
            Agrees (fun _ => true) (EqAtom (· = ·)) p.2 w)) := by
        intro p hp
        rw [forall_prop_of_true rfl]
        refine exists_congr fun w => and_congr_right fun hget => ?_
        exact ih p hp (hvals p hp) (hvals' _ (Dict.mem_of_get?_eq_some hget))
      rw [forall₂_congr hitem, and_comm]
      refine and_congr_right fun hitems => ?_
      have hsub : Dict.keys items ⊆ Dict.keys items' := by
        intro k hk
        obtain ⟨p, hp, rfl⟩ := List.mem_map.mp hk
        obtain ⟨w, hw, -⟩ := hitems p hp rfl
        exact Dict.mem_keys_of_get?_eq_some hw
      rw [beq_iff_eq]
      constructor
      · exact fun hlen k hk _ => keys_subset_of_length hnd hsub hlen hk
      · intro hback
        have hperm : (Dict.keys items).Perm (Dict.keys items') :=
          (List.perm_ext_iff_of_nodup hnd hnd').mpr fun k =>
            ⟨fun hk => hsub hk, fun hk => hback k hk rfl⟩
        simpa [Dict.keys] using hperm.length_eq
    | _ => simp [same, eq, isNan, Agrees, EqAtom, number?]
  | hnone => cases w <;> simp [same, eq, isNan, Agrees, EqAtom, number?]
  | hbool b =>
    rw [same_number rfl]
    cases w <;> simp [Agrees, EqAtom, number?]
  | hint i =>
    rw [same_number rfl]
    cases w <;> simp [Agrees, EqAtom, number?]
  | hfloat f =>
    rw [same_number rfl]
    cases w <;> simp [Agrees, EqAtom, number?]
  | hstr s => cases w <;> simp [same, eq, isNan, Agrees, EqAtom, number?]

/-- What agrees with a NaN is one. -/
theorem isNan_of_agrees {v w : Value} (h : Agrees (fun _ => true) (EqAtom (· = ·)) v w) :
    v.isNan = w.isNan := by
  rw [isNan_eq, isNan_eq]
  cases v <;> cases w <;> simp_all [Agrees, EqAtom, number?]

/-- Python's `==` on documents with distinct keys. -/
theorem eq_iff_agrees {v w : Value} (hv : v.wf = true) (hw : w.wf = true) :
    v.eq w = true ↔ v.isNan = false ∧ Agrees (fun _ => true) (EqAtom (· = ·)) v w := by
  rw [← same_iff_agrees hv hw, same]
  cases hnan : v.isNan with
  | false => simp
  | true =>
    -- a NaN is equal to nothing
    rw [isNan_iff] at hnan
    subst hnan
    cases w <;> simp [eq, number?, PyFloat.eq]

/-! ### Agreement as a relation -/

private theorem agreesList_symm {vs ws : List Value}
    (ih : ∀ v ∈ vs, ∀ w, w.wf = true → Agrees keep leaf v w → Agrees keep leaf w v)
    (hws : ∀ w ∈ ws, w.wf = true) (h : AgreesList keep leaf vs ws) :
    AgreesList keep leaf ws vs := by
  induction vs generalizing ws with
  | nil =>
    cases ws with
    | nil => trivial
    | cons w ws => exact h.elim
  | cons v vs ihvs =>
    cases ws with
    | nil => exact h.elim
    | cons w ws =>
      refine ⟨ih v (by simp) w (hws w (by simp)) h.1, ?_⟩
      exact ihvs (fun v' hv' => ih v' (by simp [hv'])) (fun w' hw' => hws w' (by simp [hw'])) h.2

/-- Agreement is symmetric when it is at the leaves. -/
theorem Agrees.symm (hleaf : ∀ v w, leaf v w → leaf w v) {v w : Value} (hv : v.wf = true)
    (hw : w.wf = true) (h : Agrees keep leaf v w) : Agrees keep leaf w v := by
  induction v using Value.induct generalizing w with
  | hlist vs ih =>
    cases w with
    | list ws =>
      rw [Agrees] at h ⊢
      exact agreesList_symm (fun v hmem w hw h => ih v hmem (wf_list.mp hv v hmem) hw h)
        (wf_list.mp hw) h
    | _ => exact hleaf _ _ h
  | hdict items ih =>
    cases w with
    | dict items' =>
      obtain ⟨-, hvals⟩ := wf_dict.mp hv
      obtain ⟨hnd', hvals'⟩ := wf_dict.mp hw
      rw [Agrees, agreesItems_iff] at h ⊢
      refine ⟨fun q hq hkeep => ?_, fun k hk hkeep => ?_⟩
      · -- the first object has an item under the same key, and its partner can only be this one
        obtain ⟨v, hget⟩ := Dict.exists_get?_of_mem_keys (h.2 q.1 (List.mem_map_of_mem hq) hkeep)
        have hmem := Dict.mem_of_get?_eq_some hget
        obtain ⟨w, hget', hagrees⟩ := h.1 _ hmem hkeep
        rw [(Dict.get?_eq_some_iff hnd').mpr hq] at hget'
        obtain rfl := Option.some.inj hget'
        exact ⟨v, hget, ih _ hmem (hvals _ hmem) (hvals' q hq) hagrees⟩
      · obtain ⟨p, hp, rfl⟩ := List.mem_map.mp hk
        obtain ⟨w, hget, -⟩ := h.1 p hp hkeep
        exact Dict.mem_keys_of_get?_eq_some hget
    | _ => exact hleaf _ _ h
  | _ => cases w <;> exact hleaf _ _ h

private theorem agreesList_trans {vs ws xs : List Value}
    (ih : ∀ v ∈ vs, ∀ w x, Agrees keep leaf v w → Agrees keep leaf w x → Agrees keep leaf v x)
    (h : AgreesList keep leaf vs ws) (h' : AgreesList keep leaf ws xs) :
    AgreesList keep leaf vs xs := by
  induction vs generalizing ws xs with
  | nil =>
    cases ws with
    | nil => exact h'
    | cons w ws => exact h.elim
  | cons v vs ihvs =>
    cases ws with
    | nil => exact h.elim
    | cons w ws =>
      cases xs with
      | nil => exact h'.elim
      | cons x xs =>
        exact ⟨ih v (by simp) w x h.1 h'.1, ihvs (fun v' hv' => ih v' (by simp [hv'])) h.2 h'.2⟩

/-- A value without parts. -/
def isAtom : Value → Bool
  | .list _ | .dict _ => false
  | _ => true

/-- Atoms that are related agree. -/
theorem agrees_of_leaf {v w : Value} (hv : v.isAtom = true) (h : leaf v w) :
    Agrees keep leaf v w := by
  cases v with
  | list vs => cases hv
  | dict items => cases hv
  | _ => exact h

/-- What agrees with an atom is related to it. -/
theorem leaf_of_agrees {v w : Value} (hv : v.isAtom = true) (h : Agrees keep leaf v w) :
    leaf v w := by
  cases v with
  | list vs => cases hv
  | dict items => cases hv
  | _ => exact h

/-- Agreement is transitive when it is at the leaves, and only atoms are related there. -/
theorem Agrees.trans (hleaf : ∀ v w x, leaf v w → leaf w x → leaf v x)
    (hatom : ∀ v w, leaf v w → v.isAtom = true ∧ w.isAtom = true) {v w x : Value}
    (h : Agrees keep leaf v w) (h' : Agrees keep leaf w x) : Agrees keep leaf v x := by
  -- what agrees with an atom is an atom, and then `leaf` decides
  have hstop : ∀ {v w x : Value}, v.isAtom = true → Agrees keep leaf v w →
      Agrees keep leaf w x → Agrees keep leaf v x := by
    intro v w x hv h h'
    have hvw := leaf_of_agrees hv h
    exact agrees_of_leaf hv (hleaf v w x hvw (leaf_of_agrees (hatom v w hvw).2 h'))
  induction v using Value.induct generalizing w x with
  | hlist vs ih =>
    cases w with
    | list ws =>
      cases x with
      | list xs =>
        rw [Agrees] at h h' ⊢
        exact agreesList_trans (fun v hmem w x => ih v hmem) h h'
      | _ => cases (hatom _ _ h').1
    | _ => cases (hatom _ _ h).1
  | hdict items ih =>
    cases w with
    | dict items' =>
      cases x with
      | dict items'' =>
        rw [Agrees, agreesItems_iff] at h h' ⊢
        refine ⟨fun p hp hkeep => ?_, fun k hk hkeep => h.2 k (h'.2 k hk hkeep) hkeep⟩
        obtain ⟨w, hget, hagrees⟩ := h.1 p hp hkeep
        obtain ⟨x, hget', hagrees'⟩ := h'.1 _ (Dict.mem_of_get?_eq_some hget) hkeep
        exact ⟨x, hget', ih p hp hagrees hagrees'⟩
      | _ => cases (hatom _ _ h').1
    | _ => cases (hatom _ _ h).1
  | _ => exact hstop rfl h h'

/-! ### Python's `==` as a relation -/

/-- Atoms that agree: `None` twice, one string twice, or one number twice. -/
theorem eqAtom_cases {v w : Value} : EqAtom (· = ·) v w ↔ (v = .none ∧ w = .none) ∨
    (∃ s, v = .str s ∧ w = .str s) ∨ ∃ a ∈ v.number?, a ∈ w.number? := by
  cases v <;> cases w <;> simp [EqAtom, number?]
  case str.str s t => exact ⟨Eq.symm, Eq.symm⟩

/-- Equality of atoms is symmetric. -/
theorem eqAtom_symm (v w : Value) (h : EqAtom (· = ·) v w) : EqAtom (· = ·) w v := by
  rw [eqAtom_cases] at h ⊢
  rcases h with ⟨hv, hw⟩ | ⟨s, hv, hw⟩ | ⟨a, ha, hb⟩
  · exact .inl ⟨hw, hv⟩
  · exact .inr (.inl ⟨s, hw, hv⟩)
  · exact .inr (.inr ⟨a, hb, ha⟩)

/-- Equality of atoms is transitive. -/
theorem eqAtom_trans (v w x : Value) (h : EqAtom (· = ·) v w) (h' : EqAtom (· = ·) w x) :
    EqAtom (· = ·) v x := by
  rw [eqAtom_cases] at h h' ⊢
  -- `None`, a text or a number in the middle: the kind is the same on both sides
  rcases h with ⟨hv, rfl⟩ | ⟨s, hv, rfl⟩ | ⟨a, ha, hb⟩
  · rcases h' with ⟨-, hx⟩ | ⟨s, hw, -⟩ | ⟨a, ha, -⟩
    · exact .inl ⟨hv, hx⟩
    · cases hw
    · cases ha
  · rcases h' with ⟨hw, -⟩ | ⟨t, hw, hx⟩ | ⟨a, ha, -⟩
    · cases hw
    · cases hw
      exact .inr (.inl ⟨s, hv, hx⟩)
    · cases ha
  · rcases h' with ⟨rfl, -⟩ | ⟨t, rfl, -⟩ | ⟨a', ha', hc⟩
    · cases hb
    · cases hb
    · obtain rfl : a = a' := Option.some.inj (hb.symm.trans ha')
      exact .inr (.inr ⟨a, ha, hc⟩)

/-- Only atoms are equal as atoms. -/
theorem isAtom_of_eqAtom (v w : Value) (h : EqAtom (· = ·) v w) :
    v.isAtom = true ∧ w.isAtom = true := by
  cases v <;> cases w <;> simp_all [EqAtom, isAtom, number?]

/-- `==` is symmetric. -/
theorem eq_symm {v w : Value} (hv : v.wf = true) (hw : w.wf = true) (h : v.eq w = true) :
    w.eq v = true := by
  obtain ⟨hnan, hagrees⟩ := (eq_iff_agrees hv hw).mp h
  exact (eq_iff_agrees hw hv).mpr
    ⟨(isNan_of_agrees hagrees).symm.trans hnan, hagrees.symm eqAtom_symm hv hw⟩

/-- Which side stands first does not matter. -/
theorem eq_comm {v w : Value} (hv : v.wf = true) (hw : w.wf = true) : v.eq w = w.eq v :=
  Bool.eq_iff_iff.mpr ⟨eq_symm hv hw, eq_symm hw hv⟩

/-- `==` is transitive. -/
theorem eq_trans {v w x : Value} (hv : v.wf = true) (hw : w.wf = true) (hx : x.wf = true)
    (h : v.eq w = true) (h' : w.eq x = true) : v.eq x = true := by
  obtain ⟨hnan, hagrees⟩ := (eq_iff_agrees hv hw).mp h
  obtain ⟨-, hagrees'⟩ := (eq_iff_agrees hw hx).mp h'
  exact (eq_iff_agrees hv hx).mpr ⟨hnan, hagrees.trans eqAtom_trans isAtom_of_eqAtom hagrees'⟩

end Value

end Python
