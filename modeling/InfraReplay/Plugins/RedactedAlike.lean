import InfraReplay.Plugins.Redaction

/-!
# What redaction hides

`SameOutside` compares two values everywhere but under sensitive keys, and says nothing about what
stands there. Two values are redacted to the same value exactly when they are the same outside
(`scrub_eq_scrub_iff`), so nothing under a sensitive key can be told from a redacted event and
everything else can.
-/

namespace InfraReplay

open Python

mutual

/-- The values differ at most under sensitive keys. -/
def SameOutside : Value → Value → Prop
  | .list vs, .list ws => SameOutsideList vs ws
  | .dict items, .dict items' => SameOutsideItems items items'
  | v, w => v = w

def SameOutsideList : List Value → List Value → Prop
  | [], [] => True
  | v :: vs, w :: ws => SameOutside v w ∧ SameOutsideList vs ws
  | _, _ => False

/-- The same keys in the same order, and under each the same outside if it is not sensitive. -/
def SameOutsideItems : List (String × Value) → List (String × Value) → Prop
  | [], [] => True
  | (k, v) :: items, (k', w) :: items' =>
    k = k' ∧ (isSensitive k = true ∨ SameOutside v w) ∧ SameOutsideItems items items'
  | _, _ => False

end

theorem sameOutsideList_iff {vs ws : List Value} :
    SameOutsideList vs ws ↔ List.Forall₂ SameOutside vs ws := by
  induction vs generalizing ws with
  | nil => cases ws <;> simp [SameOutsideList]
  | cons v vs ih => cases ws <;> simp [SameOutsideList, ih]

theorem sameOutsideItems_iff {items items' : List (String × Value)} :
    SameOutsideItems items items' ↔ List.Forall₂
      (fun p q => p.1 = q.1 ∧ (isSensitive p.1 = true ∨ SameOutside p.2 q.2)) items items' := by
  induction items generalizing items' with
  | nil => cases items' <;> simp [SameOutsideItems]
  | cons p items ih => cases items' <;> simp [SameOutsideItems, ih, and_assoc]

/-- Lists that are mapped to the same list. -/
theorem map_eq_map_iff_forall₂ {α β : Type} {f : α → β} {l l' : List α} :
    l.map f = l'.map f ↔ List.Forall₂ (fun a b => f a = f b) l l' := by
  rw [← List.forall₂_eq_eq_eq, List.forall₂_map_left_iff, List.forall₂_map_right_iff]

/-- Two relations that agree on the elements of the first list. -/
theorem forall₂_congr_left {α β : Type} {R S : α → β → Prop} {l : List α} {l' : List β}
    (h : ∀ a ∈ l, ∀ b, R a b ↔ S a b) : List.Forall₂ R l l' ↔ List.Forall₂ S l l' := by
  induction l generalizing l' with
  | nil => simp
  | cons a l ih =>
    obtain ⟨ha, hl⟩ := List.forall_mem_cons.mp h
    cases l' with
    | nil => simp
    | cons b l' => rw [List.forall₂_cons, List.forall₂_cons, ha b, ih hl]

/-- An entry is redacted to the same entry under the same key, and from the same outside if the key
is not sensitive. -/
theorem scrubEntry_eq_iff {p q : String × Value}
    (h : ∀ w, scrub p.2 = scrub w ↔ SameOutside p.2 w) :
    (p.1, scrubEntry p.1 p.2) = (q.1, scrubEntry q.1 q.2) ↔
      p.1 = q.1 ∧ (isSensitive p.1 = true ∨ SameOutside p.2 q.2) := by
  rw [Prod.mk.injEq, and_congr_right_iff]
  intro hkey
  rw [scrubEntry, scrubEntry, ← hkey, ← h]
  by_cases hk : isSensitive p.1 = true
  · simp [hk]
  · simp [hk]

/-- Values are redacted to the same value exactly when they are the same outside. -/
theorem scrub_eq_scrub_iff {v w : Value} : scrub v = scrub w ↔ SameOutside v w := by
  induction v using Value.induct generalizing w with
  | hlist vs ih =>
    cases w with
    -- element by element
    | list ws =>
      rw [scrub, scrub, scrubList_eq, scrubList_eq, Value.list.injEq, map_eq_map_iff_forall₂,
        SameOutside, sameOutsideList_iff]
      exact forall₂_congr_left fun v hv w => ih v hv
    | _ => simp [scrub, SameOutside]
  | hdict items ih =>
    cases w with
    -- entry by entry: the keys are the same, and the value of a sensitive one is not looked at
    | dict items' =>
      rw [scrub, scrub, scrubItems_eq, scrubItems_eq, Value.dict.injEq, map_eq_map_iff_forall₂,
        SameOutside, sameOutsideItems_iff]
      exact forall₂_congr_left fun p hp q => scrubEntry_eq_iff fun w => ih p hp
    | _ => simp [scrub, SameOutside]
  | hnone => cases w <;> simp [scrub, SameOutside]
  | hbool b => cases w <;> simp [scrub, SameOutside]
  | hint i => cases w <;> simp [scrub, SameOutside]
  | hfloat f => cases w <;> simp [scrub, SameOutside]
  | hstr s => cases w <;> simp [scrub, SameOutside]

/-- The events differ at most in their payloads, and there at most under sensitive keys. -/
structure DifferOnlyInSecrets (e e' : Event) : Prop where
  fields : { e with payload := e'.payload } = e'
  payload : SameOutside (.dict e.payload.items) (.dict e'.payload.items)

/-- Events are redacted to the same event exactly when they differ at most under sensitive keys. -/
theorem redact_eq_redact_iff {e e' : Event} :
    redact e = redact e' ↔ DifferOnlyInSecrets e e' := by
  have hpayload : scrubPayload e.payload = scrubPayload e'.payload ↔
      SameOutside (.dict e.payload.items) (.dict e'.payload.items) := by
    rw [← scrub_eq_scrub_iff, Payload.ext_iff, scrub, scrub, Value.dict.injEq]
    rfl
  constructor
  · intro h
    refine ⟨?_, hpayload.mp (congrArg Event.payload h)⟩
    -- apart from the payload, redaction returns the fields of the event
    calc { e with payload := e'.payload } = { redact e with payload := e'.payload } := rfl
      _ = { redact e' with payload := e'.payload } := by rw [h]
      _ = e' := rfl
  · rintro ⟨hfields, hsame⟩
    rw [← hfields] at hsame ⊢
    rw [redact, hpayload.mpr hsame]
    rfl

/-- **Redaction hides exactly the sensitive values.** Two events are redacted to the same event if
and only if they differ at most under sensitive keys; a second redaction changes nothing; and
redaction changes no field but the payload, and in it nothing but what stands under sensitive
keys. -/
theorem redact_hides_exactly (e e' : Event) :
    (redact e = redact e' ↔ DifferOnlyInSecrets e e') ∧ redact (redact e) = redact e ∧
      { redact e with payload := e.payload } = e ∧ DifferOnlyInSecrets e (redact e) :=
  ⟨redact_eq_redact_iff, redact_redact e, rfl,
    redact_eq_redact_iff.mp (redact_redact e).symm⟩

/-- A token and a list of cards of another length are redacted alike. -/
example : scrub (.dict [("Token", .str "abc"), ("card_number", .list [.int 1, .int 2])]) =
    scrub (.dict [("Token", .none), ("card_number", .list [])]) := rfl

end InfraReplay
