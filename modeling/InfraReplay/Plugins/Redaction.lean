import InfraReplay.Comparison.Normalize
import InfraReplay.Schema

/-!
# The default redaction plugin

`redact` replaces every value under a sensitive key by a mask, at any depth of objects and arrays.

`Masked` is what that is for, said without the recursion: whatever is found under a sensitive key
is the mask. `masked_scrub` says that scrubbing reaches it, `scrub_eq_self` that a masked value is
left alone (so redaction is idempotent), and `masked_normalize` that the values a comparison
writes into its diff are masked when the recorded ones are.
-/

namespace InfraReplay

open Python

/-- `REDACTED`. -/
def redactedMask : String := "***REDACTED***"

/-- `_SENSITIVE_KEYS`. -/
def sensitiveKeys : List String :=
  ["authorization", "cookie", "set-cookie", "x-api-key", "password", "secret", "token",
    "access_token", "refresh_token", "card_number", "cvv"]

/-- A key that matches a sensitive one in any case. -/
def isSensitive (key : String) : Bool := lower key ∈ sensitiveKeys

mutual

/-- `_scrub`. -/
def scrub : Value → Value
  | .dict items => .dict (scrubItems items)
  | .list vs => .list (scrubList vs)
  | v => v

def scrubList : List Value → List Value
  | [] => []
  | v :: vs => scrub v :: scrubList vs

/-- The dictionary comprehension of `_scrub`, with `_scrub_entry` at each item. -/
def scrubItems : List (String × Value) → List (String × Value)
  | [] => []
  | (k, v) :: items =>
    (k, if isSensitive k then .str redactedMask else scrub v) :: scrubItems items

end

/-- `_scrub_entry`. -/
def scrubEntry (key : String) (v : Value) : Value :=
  if isSensitive key then .str redactedMask else scrub v

/-- On lists, scrubbing is `map`. -/
theorem scrubList_eq (vs : List Value) : scrubList vs = vs.map scrub := by
  induction vs with
  | nil => rfl
  | cons v vs ih => simp [scrubList, ih]

/-- On the items of a dictionary, scrubbing masks or scrubs each value and leaves the keys. -/
theorem scrubItems_eq (items : List (String × Value)) :
    scrubItems items = items.map fun p => (p.1, scrubEntry p.1 p.2) := by
  induction items with
  | nil => rfl
  | cons p items ih => simp [scrubItems, scrubEntry, ih]

/-- Scrubbing keeps the keys. -/
theorem map_fst_scrubItems (items : List (String × Value)) :
    (scrubItems items).map Prod.fst = items.map Prod.fst := by
  rw [scrubItems_eq, List.map_map]
  rfl

/-- Scrubbing keeps the keys of every dictionary. -/
theorem wf_scrub {v : Value} (h : v.wf = true) : (scrub v).wf = true := by
  induction v using Value.induct with
  | hlist vs ih =>
    rw [scrub, scrubList_eq, Value.wf_list]
    intro w hw
    obtain ⟨v, hv, rfl⟩ := List.mem_map.mp hw
    exact ih v hv (Value.wf_list.mp h v hv)
  | hdict items ih =>
    obtain ⟨hnd, hvals⟩ := Value.wf_dict.mp h
    rw [scrub, Value.wf_dict, map_fst_scrubItems, scrubItems_eq]
    refine ⟨hnd, fun p hp => ?_⟩
    obtain ⟨q, hq, rfl⟩ := List.mem_map.mp hp
    simp only [scrubEntry]
    split_ifs
    · -- the text that stands for a secret
      rfl
    · exact ih q hq (hvals q hq)
  | hnone => rfl
  | hbool b => rfl
  | hint i => rfl
  | hfloat f => rfl
  | hstr s => rfl

/-- `_scrub` on the payload of an event. -/
def scrubPayload (payload : Payload) : Payload where
  items := scrubItems payload.items
  wf := wf_scrub payload.wf

/-- `DefaultRedactionPlugin.redact`. -/
def redact (event : Event) : Event :=
  { event with payload := scrubPayload event.payload }

/-! ### What redaction is for -/

/-- The value `w` is found under the key `k` somewhere inside a value. -/
inductive Found (k : String) (w : Value) : Value → Prop
  | here {items : List (String × Value)} (h : (k, w) ∈ items) : Found k w (.dict items)
  | entry {items : List (String × Value)} {p : String × Value} (hp : p ∈ items)
      (h : Found k w p.2) : Found k w (.dict items)
  | element {vs : List Value} {v : Value} (hv : v ∈ vs) (h : Found k w v) : Found k w (.list vs)

/-- Every value under a sensitive key is the mask. -/
def Masked (v : Value) : Prop :=
  ∀ k w, Found k w v → isSensitive k = true → w = .str redactedMask

/-- A list is masked when its elements are. -/
theorem masked_list {vs : List Value} : Masked (.list vs) ↔ ∀ v ∈ vs, Masked v := by
  constructor
  · exact fun h v hv k w hfound => h k w (.element hv hfound)
  · intro h k w hfound
    cases hfound with
    | element hv hfound => exact h _ hv k w hfound

/-- A dictionary is masked when its sensitive values are the mask and the others are masked. -/
theorem masked_dict {items : List (String × Value)} :
    Masked (.dict items) ↔
      ∀ p ∈ items, (isSensitive p.1 = true → p.2 = .str redactedMask) ∧ Masked p.2 := by
  constructor
  · exact fun h p hp => ⟨h p.1 p.2 (.here hp), fun k w hfound => h k w (.entry hp hfound)⟩
  · intro h k w hfound
    cases hfound with
    | here hp => exact (h _ hp).1
    | entry hp hfound => exact (h _ hp).2 k w hfound

@[simp]
theorem masked_none : Masked .none := fun _ _ h => by cases h

@[simp]
theorem masked_bool (b : Bool) : Masked (.bool b) := fun _ _ h => by cases h

@[simp]
theorem masked_int (i : ℤ) : Masked (.int i) := fun _ _ h => by cases h

@[simp]
theorem masked_float (f : PyFloat) : Masked (.float f) := fun _ _ h => by cases h

@[simp]
theorem masked_str (s : String) : Masked (.str s) := fun _ _ h => by cases h

/-- Scrubbing masks every sensitive value. -/
theorem masked_scrub (v : Value) : Masked (scrub v) := by
  induction v using Value.induct with
  | hlist vs ih =>
    rw [scrub, scrubList_eq, masked_list]
    intro w hw
    obtain ⟨v, hv, rfl⟩ := List.mem_map.mp hw
    exact ih v hv
  | hdict items ih =>
    rw [scrub, scrubItems_eq, masked_dict]
    intro p hp
    obtain ⟨q, hq, rfl⟩ := List.mem_map.mp hp
    simp only [scrubEntry]
    -- a sensitive entry becomes the mask, which is a string and holds no further entry
    split_ifs with hk
    · exact ⟨fun _ => rfl, masked_str _⟩
    · exact ⟨fun h => absurd h hk, ih q hq⟩
  | hnone => exact masked_none
  | hbool b => exact masked_bool b
  | hint i => exact masked_int i
  | hfloat f => exact masked_float f
  | hstr s => exact masked_str s

/-- Scrubbing leaves a masked value alone. -/
theorem scrub_eq_self {v : Value} (h : Masked v) : scrub v = v := by
  induction v using Value.induct with
  | hlist vs ih =>
    rw [masked_list] at h
    rw [scrub, scrubList_eq, List.map_congr_left fun v hv => ih v hv (h v hv), List.map_id']
  | hdict items ih =>
    rw [masked_dict] at h
    -- a sensitive value is the mask already
    have hentry : ∀ p ∈ items, (p.1, scrubEntry p.1 p.2) = p := by
      intro p hp
      rw [scrubEntry]
      split_ifs with hk
      · rw [← (h p hp).1 hk]
      · rw [ih p hp (h p hp).2]
    rw [scrub, scrubItems_eq, List.map_congr_left hentry, List.map_id']
  | hnone => rfl
  | hbool b => rfl
  | hint i => rfl
  | hfloat f => rfl
  | hstr s => rfl

/-- What was masked still is in JSON mode. -/
theorem masked_jsonMode {v : Value} (h : Masked v) : Masked v.jsonMode := by
  induction v using Value.induct with
  | hlist vs ih =>
    rw [masked_list] at h
    rw [Value.jsonMode_list, masked_list]
    intro w hw
    obtain ⟨v, hv, rfl⟩ := List.mem_map.mp hw
    exact ih v hv (h v hv)
  | hdict items ih =>
    rw [masked_dict] at h
    rw [Value.jsonMode_dict, masked_dict]
    intro p hp
    obtain ⟨q, hq, rfl⟩ := List.mem_map.mp hp
    -- the mask is a string, and stays
    exact ⟨fun hk => by rw [(h q hq).1 hk]; rfl, ih q hq (h q hq).2⟩
  | hfloat f => cases f <;> first | exact masked_none | exact masked_float _
  | hnone => exact masked_none
  | hbool b => exact masked_bool b
  | hint i => exact masked_int i
  | hstr s => exact masked_str s

/-- The payload of an event, as a value, is masked. -/
def Event.IsMasked (e : Event) : Prop := Masked (.dict e.payload.items)

/-- The payload is masked after redaction. -/
theorem isMasked_redact (e : Event) : (redact e).IsMasked :=
  masked_scrub (.dict e.payload.items)

/-- Dumping an event in JSON mode brings no secret back. -/
theorem isMasked_jsonMode {e : Event} (h : e.IsMasked) : e.jsonMode.IsMasked := masked_jsonMode h

/-- Redaction leaves a masked event alone. -/
theorem redact_eq_self {e : Event} (h : e.IsMasked) : redact e = e := by
  have hitems : scrubItems e.payload.items = e.payload.items := by
    simpa [scrub] using scrub_eq_self h
  have hpayload : scrubPayload e.payload = e.payload := Payload.ext hitems
  rw [redact, hpayload]

/-- A second redaction changes nothing. -/
@[simp]
theorem redact_redact (e : Event) : redact (redact e) = redact e :=
  redact_eq_self (isMasked_redact e)

/-- Redaction changes the payload only. -/
theorem map_redact {β : Type} {f : Event → β}
    (hf : ∀ (e : Event) (p : Payload), f { e with payload := p } = f e) (events : List Event) :
    (events.map redact).map f = events.map f := by
  rw [List.map_map]
  exact List.map_congr_left fun e _ => hf e _

/-- What a masked payload answers for a key is masked. -/
theorem masked_getD {payload : Payload} (h : Masked (.dict payload.items)) (key : String) :
    Masked (payload.getD key) := by
  rw [Payload.getD, Payload.get?]
  cases hk : Dict.get? payload.items key with
  | none => exact masked_none
  | some v => exact (masked_dict.mp h _ (Dict.mem_of_get?_eq_some hk)).2

/-- An entry of a scrubbed payload. -/
theorem get?_scrubPayload (payload : Payload) (key : String) :
    (scrubPayload payload).get? key = (payload.get? key).map (scrubEntry key) := by
  show Dict.get? (scrubItems payload.items) key = _
  rw [scrubItems_eq, Dict.get?_map]
  rfl

/-- The mask has no volatile shape. -/
theorem placeholder_redactedMask : placeholder redactedMask = redactedMask := by decide

/-- What is masked stays masked when it is normalised. -/
theorem masked_normalize {cfg : Config} {v : Value} (h : Masked v) :
    Masked (normalize cfg v) := by
  induction v using Value.induct with
  | hlist vs ih =>
    rw [normalize, normalizeList_eq, masked_list]
    intro w hw
    obtain ⟨v, hv, rfl⟩ := List.mem_map.mp hw
    exact ih v hv (masked_list.mp h v hv)
  | hdict items ih =>
    rw [normalize, normalizeItems_eq, masked_dict]
    intro p hp
    obtain ⟨q, hq, rfl⟩ := List.mem_map.mp hp
    have hq' := (List.mem_filter.mp hq).1
    obtain ⟨hmask, hrest⟩ := masked_dict.mp h q hq'
    -- the key is kept, and the mask under a sensitive key is its own placeholder
    refine ⟨fun hk => ?_, ih q hq' hrest⟩
    simp only at hk ⊢
    rw [hmask hk, normalize, placeholder_redactedMask]
  | hnone => exact masked_none
  | hbool b => exact masked_bool b
  | hint i => exact masked_int i
  | hfloat f => exact masked_float f
  | hstr s => exact masked_str _

end InfraReplay
