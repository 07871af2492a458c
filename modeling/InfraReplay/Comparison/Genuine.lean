import InfraReplay.Comparison.Engine
import InfraReplay.Python.Agree

/-!
# What a `MATCH` says about the two values

A comparator that answers `MATCH` should have seen one JSON value on both sides, up to the fields
it drops and up to strings of one volatile class (`Unchanged`). Two slips let more through: `==`
takes a boolean for the number it counts as, and the patterns of the classes accept a final
newline, digits and letters outside ASCII, which no documented shape has.

`unchanged_of_match_iff` says when a `MATCH` can be trusted: when no slip occurs between the
values that face each other, or when they differ somewhere else as well.
-/

namespace InfraReplay

open Python

/-! ### Volatile classes -/

/-- The classes of generated strings. -/
inductive VolatileClass where
  | uuid
  | timestamp
  | prefixedId

namespace VolatileClass

/-- The pattern that recognises the class. -/
def pattern : VolatileClass → String → Bool
  | uuid => isUuid
  | timestamp => isTimestamp
  | prefixedId => isPrefixedId

/-- The placeholder of the class. -/
def literal : VolatileClass → String
  | uuid => uuidPlaceholder
  | timestamp => timestampPlaceholder
  | prefixedId => idPlaceholder

/-- What `_placeholder` takes for the class: its pattern matches, or it is the placeholder. -/
def Matches (c : VolatileClass) (s : String) : Prop := c.pattern s = true ∨ s = c.literal

/-- What the class is documented to be: ASCII text of the shape and nothing else, or the
placeholder. -/
def Member (c : VolatileClass) (s : String) : Prop :=
  (c.pattern s = true ∧ ∀ a ∈ s.toList, a.toNat < 128 ∧ a ≠ '\n') ∨ s = c.literal

theorem Member.matches {c : VolatileClass} {s : String} (h : c.Member s) : c.Matches s :=
  h.imp_left And.left

theorem literal_injective : Function.Injective literal := by
  intro c c' h
  cases c <;> cases c' <;> first | rfl | exact absurd h (by decide)

/-- The placeholder of a class stays as it is. -/
theorem placeholder_literal (c : VolatileClass) : placeholder c.literal = c.literal := by
  cases c <;> decide

/-- A string gets the placeholder of the class it is taken for, and no other string does. -/
theorem placeholder_eq_literal_iff {c : VolatileClass} {s : String} :
    placeholder s = c.literal ↔ c.Matches s := by
  constructor
  · intro h
    unfold placeholder at h
    split_ifs at h with huuid htimestamp hid
    · obtain rfl : uuid = c := literal_injective h
      exact .inl huuid
    · obtain rfl : timestamp = c := literal_injective h
      exact .inl htimestamp
    · obtain rfl : prefixedId = c := literal_injective h
      exact .inl hid
    · exact .inr h
  · rintro (h | rfl)
    · cases c with
      | uuid => exact placeholder_of_isUuid h
      | timestamp => exact placeholder_of_isTimestamp h
      | prefixedId => exact placeholder_of_isPrefixedId h
    · exact placeholder_literal c

/-- A string of no class stays as it is. -/
theorem placeholder_eq_self {s : String} (h : ∀ c : VolatileClass, c.pattern s ≠ true) :
    placeholder s = s :=
  (if_neg (h uuid)).trans ((if_neg (h timestamp)).trans (if_neg (h prefixedId)))

end VolatileClass

/-- Two strings that normalise together are equal or taken for one class. -/
theorem placeholder_eq_iff {s t : String} :
    placeholder s = placeholder t ↔ s = t ∨ ∃ c : VolatileClass, c.Matches s ∧ c.Matches t := by
  constructor
  · intro h
    -- a string without a pattern is its own placeholder, which another one may be mapped to
    by_cases hs : ∃ c : VolatileClass, c.pattern s = true
    · obtain ⟨c, hc⟩ := hs
      have hlit := VolatileClass.placeholder_eq_literal_iff.mpr (.inl hc)
      exact .inr ⟨c, .inl hc, VolatileClass.placeholder_eq_literal_iff.mp (h ▸ hlit)⟩
    · rw [not_exists] at hs
      rw [VolatileClass.placeholder_eq_self hs] at h
      by_cases ht : ∃ c : VolatileClass, c.pattern t = true
      · obtain ⟨c, hc⟩ := ht
        have hlit := VolatileClass.placeholder_eq_literal_iff.mpr (.inl hc)
        exact .inr ⟨c, .inr (h.trans hlit), .inl hc⟩
      · rw [not_exists] at ht
        exact .inl (h.trans (VolatileClass.placeholder_eq_self ht))
  · rintro (rfl | ⟨c, hs, ht⟩)
    · rfl
    · rw [VolatileClass.placeholder_eq_literal_iff.mpr hs,
        VolatileClass.placeholder_eq_literal_iff.mpr ht]

/-! ### Normalising both sides -/

section Normalize

variable {cfg : Config}

theorem get?_normalizeItems (items : List (String × Value)) (k : String) :
    Dict.get? (normalizeItems cfg items) k =
      if cfg.keeps k = true then (Dict.get? items k).map (normalize cfg) else none := by
  rw [normalizeItems_eq, Dict.get?_map fun _ => normalize cfg, Dict.get?_filter cfg.keeps]
  split_ifs <;> rfl

theorem mem_keys_normalizeItems {items : List (String × Value)} {k : String} :
    k ∈ Dict.keys (normalizeItems cfg items) ↔ cfg.keeps k = true ∧ k ∈ Dict.keys items := by
  rw [normalizeItems_eq, Dict.keys, List.map_map, List.mem_map]
  constructor
  · rintro ⟨p, hp, rfl⟩
    obtain ⟨hmem, hkeep⟩ := List.mem_filter.mp hp
    exact ⟨hkeep, List.mem_map.mpr ⟨p, hmem, rfl⟩⟩
  · rintro ⟨hkeep, hk⟩
    obtain ⟨p, hp, rfl⟩ := List.mem_map.mp hk
    exact ⟨p, List.mem_filter.mpr ⟨hp, hkeep⟩, rfl⟩

private theorem agreesItems_normalize {leaf : Value → Value → Prop}
    {items items' : List (String × Value)}
    (ih : ∀ p ∈ items, ∀ w,
      Value.Agrees (fun _ => true) leaf (normalize cfg p.2) (normalize cfg w) ↔
        Value.Agrees cfg.keeps (fun a b => leaf (normalize cfg a) (normalize cfg b)) p.2 w) :
    Value.AgreesItems (fun _ => true) leaf (normalizeItems cfg items) (normalizeItems cfg items') ↔
      Value.AgreesItems cfg.keeps (fun a b => leaf (normalize cfg a) (normalize cfg b))
        items items' := by
  rw [Value.agreesItems_iff, Value.agreesItems_iff, normalizeItems_eq items]
  simp only [List.forall_mem_map, List.mem_filter, forall_const, and_imp]
  refine forall₂_congr fun p hp => forall_congr' fun hkeep => ?_
  -- the partner of a kept item is the normalised partner
  rw [get?_normalizeItems, if_pos hkeep]
  simp only [Option.map_eq_some_iff, exists_exists_and_eq_and]
  exact exists_congr fun w => and_congr_right fun _ => ih p hp w

private theorem agreesList_normalize {leaf : Value → Value → Prop} {vs ws : List Value}
    (ih : ∀ v ∈ vs, ∀ w,
      Value.Agrees (fun _ => true) leaf (normalize cfg v) (normalize cfg w) ↔
        Value.Agrees cfg.keeps (fun a b => leaf (normalize cfg a) (normalize cfg b)) v w) :
    Value.AgreesList (fun _ => true) leaf (normalizeList cfg vs) (normalizeList cfg ws) ↔
      Value.AgreesList cfg.keeps (fun a b => leaf (normalize cfg a) (normalize cfg b)) vs ws := by
  induction vs generalizing ws with
  | nil => cases ws <;> simp [normalizeList, Value.AgreesList]
  | cons v vs ihvs =>
    cases ws with
    | nil => simp [normalizeList, Value.AgreesList]
    | cons w ws =>
      rw [normalizeList, normalizeList, Value.AgreesList, Value.AgreesList, ih v (by simp) w,
        ihvs fun v' hv' => ih v' (by simp [hv'])]

/-- Normalised values agree everywhere when the values agree where nothing is dropped, the leaves
being compared in their normalised form. -/
theorem agrees_normalize {leaf : Value → Value → Prop} {v w : Value} :
    Value.Agrees (fun _ => true) leaf (normalize cfg v) (normalize cfg w) ↔
      Value.Agrees cfg.keeps (fun a b => leaf (normalize cfg a) (normalize cfg b)) v w := by
  induction v using Value.induct generalizing w with
  | hlist vs ih =>
    cases w with
    | list ws =>
      rw [normalize, normalize, Value.Agrees, Value.Agrees]
      exact agreesList_normalize fun v hv w => ih v hv
    | _ => simp [normalize, Value.Agrees]
  | hdict items ih =>
    cases w with
    | dict items' =>
      rw [normalize, normalize, Value.Agrees, Value.Agrees,
        agreesItems_normalize fun p hp w => ih p hp]
      -- what is left to compare is that the kept keys are the same
      refine and_congr_right fun _ => forall_congr' fun k => ?_
      simp only [mem_keys_normalizeItems]
      tauto
    | _ => simp [normalize, Value.Agrees]
  | hnone => cases w <;> simp [normalize, Value.Agrees]
  | hbool b => cases w <;> simp [normalize, Value.Agrees]
  | hint i => cases w <;> simp [normalize, Value.Agrees]
  | hfloat f => cases w <;> simp [normalize, Value.Agrees]
  | hstr s => cases w <;> simp [normalize, Value.Agrees]

end Normalize

/-! ### Unchanged -/

/-- A payload entry that a comparator looks at. -/
structure ComparedField where
  key : String
  /-- Compared after normalisation. -/
  normalised : Bool

/-- What `HttpComparator` compares. -/
def httpFields : List ComparedField := [⟨"status", false⟩, ⟨"body", true⟩]

/-- What `PostgresComparator` compares. -/
def postgresFields : List ComparedField := [⟨"rows_affected", true⟩, ⟨"rows", true⟩]

/-- Two strings that may stand for each other: equal, or members of one volatile class. -/
def SameVolatile (s t : String) : Prop :=
  s = t ∨ ∃ c : VolatileClass, c.Member s ∧ c.Member t

namespace ComparedField

/-- The keys that count. -/
def keep (cfg : Config) (f : ComparedField) : String → Bool :=
  if f.normalised then cfg.keeps else fun _ => true

/-- The strings that may stand for each other. -/
def strings (f : ComparedField) : String → String → Prop :=
  if f.normalised then SameVolatile else (· = ·)

end ComparedField

/-- The two values are one JSON value, up to dropped fields and volatile strings. -/
def Unchanged (cfg : Config) (fields : List ComparedField) (original replayed : Event) : Prop :=
  ∀ f ∈ fields, Value.Agrees (f.keep cfg) (Value.SameAtom f.strings)
    (original.payload.getD f.key) (replayed.payload.getD f.key)

/-! ### Slips -/

/-- Two strings that one pattern takes for its class although not both have the documented
shape. -/
def StringSlip : Value → Value → Prop
  | .str s, .str t =>
    (∃ c : VolatileClass, c.Matches s ∧ c.Matches t) ∧ ¬ SameVolatile s t
  | _, _ => False

/-- The comparator takes two different values for one. -/
def ComparedField.Slip (f : ComparedField) (v w : Value) : Prop :=
  Value.BoolAsNumber v w ∨ f.normalised = true ∧ StringSlip v w

/-- The pairs of values of a field that face each other. -/
def ComparedField.pairs (cfg : Config) (f : ComparedField) (original replayed : Event) :
    List (Value × Value) :=
  Value.facing (f.keep cfg) (original.payload.getD f.key) (replayed.payload.getD f.key)

/-- No two values that face each other are taken for one by a slip. -/
def SlipFree (cfg : Config) (fields : List ComparedField) (original replayed : Event) : Prop :=
  ∀ f ∈ fields, ∀ p ∈ f.pairs cfg original replayed, ¬ f.Slip p.1 p.2

/-- Somewhere two values face each other that differ, and no slip hides it; or a field is itself a
NaN, which is equal to nothing. -/
def DiffersOpenly (cfg : Config) (fields : List ComparedField) (original replayed : Event) :
    Prop :=
  ∃ f ∈ fields, (original.payload.getD f.key).isNan = true ∨
    ∃ p ∈ f.pairs cfg original replayed,
      ¬ Value.SameAtom f.strings p.1 p.2 ∧ ¬ f.Slip p.1 p.2

/-- How a comparator looks at a field. -/
def ComparedField.view (cfg : Config) (f : ComparedField) (e : Event) : Value :=
  if f.normalised then normalize cfg (e.payload.getD f.key) else e.payload.getD f.key

/-- Two leaves that are equal after normalisation are the same, or a slip. -/
theorem eqAtom_normalize_iff {cfg : Config} {v w : Value} :
    Value.EqAtom (· = ·) (normalize cfg v) (normalize cfg w) ↔
      Value.SameAtom SameVolatile v w ∨ Value.BoolAsNumber v w ∨ StringSlip v w := by
  -- normalizing touches no atom but a string
  have hstrings : Value.EqAtom (· = ·) (normalize cfg v) (normalize cfg w) ↔
      Value.EqAtom (fun s t => placeholder s = placeholder t) v w := by
    cases v <;> cases w <;> simp [normalize, Value.EqAtom, Value.number?]
  -- strings of one class are the same, and so are a string and its own placeholder
  have hsame : Value.SameAtom (fun s t => placeholder s = placeholder t) v w ↔
      Value.SameAtom SameVolatile v w ∨ StringSlip v w := by
    cases v <;> cases w <;> simp only [Value.SameAtom, StringSlip, or_false]
    case str.str s t =>
      rw [placeholder_eq_iff]
      constructor
      · intro h
        by_cases hst : SameVolatile s t
        · exact .inl hst
        · exact .inr ⟨h.resolve_left fun heq => hst (.inl heq), hst⟩
      · rintro ((heq | ⟨c, hs, ht⟩) | h)
        · exact .inl heq
        · exact .inr ⟨c, hs.matches, ht.matches⟩
        · exact .inr h.1
  rw [hstrings, Value.eqAtom_iff, hsame, or_assoc, or_comm (a := StringSlip v w)]

/-- A slip is between different values. -/
theorem ComparedField.Slip.not_sameAtom {f : ComparedField} {v w : Value} (h : f.Slip v w) :
    ¬ Value.SameAtom f.strings v w := by
  rcases h with h | ⟨hnormalised, h⟩
  · cases v <;> cases w <;>
      simp [Value.BoolAsNumber, Value.SameAtom, Value.jsonNumber?] at h ⊢
  · rw [strings, if_pos hnormalised]
    cases v <;> cases w <;> simp only [StringSlip] at h
    exact h.2

section Fields

variable {cfg : Config} {original replayed : Event}

/-- Both sides of a field are equal to the comparator when every pair is the same or a slip and the
field is not a NaN. -/
theorem ComparedField.view_eq_iff (f : ComparedField) :
    (f.view cfg original).eq (f.view cfg replayed) = true ↔
      (original.payload.getD f.key).isNan = false ∧ ∀ p ∈ f.pairs cfg original replayed,
        Value.SameAtom f.strings p.1 p.2 ∨ f.Slip p.1 p.2 := by
  have ho := original.payload.wf_getD f.key
  have hr := replayed.payload.wf_getD f.key
  -- at a leaf, being equal to the comparator is being the same or slipping
  have hleaf : ∀ v w, (Value.SameAtom f.strings v w ∨ f.Slip v w) ↔
      if f.normalised then Value.EqAtom (· = ·) (normalize cfg v) (normalize cfg w)
      else Value.EqAtom (· = ·) v w := by
    intro v w
    unfold Slip strings
    split_ifs with hnormalised
    · simp [hnormalised, eqAtom_normalize_iff]
    · simp [hnormalised, Value.eqAtom_iff]
  rw [pairs, ← Value.agrees_iff_forall_facing
    fun v w => Value.SameAtom f.strings v w ∨ f.Slip v w]
  · simp only [hleaf]
    unfold view keep
    split_ifs
    · rw [Value.eq_iff_agrees (wf_normalize ho) (wf_normalize hr), agrees_normalize,
        isNan_normalize]
    · exact Value.eq_iff_agrees ho hr
  · rintro vs ws (h | h | ⟨-, h⟩)
    · simp [Value.SameAtom, Value.jsonNumber?] at h
    · exact h
    · exact h
  · rintro items items' (h | h | ⟨-, h⟩)
    · simp [Value.SameAtom, Value.jsonNumber?] at h
    · exact h
    · exact h

/-- Nothing has changed when every pair is the same. -/
theorem unchanged_iff {fields : List ComparedField} :
    Unchanged cfg fields original replayed ↔
      ∀ f ∈ fields, ∀ p ∈ f.pairs cfg original replayed,
        Value.SameAtom f.strings p.1 p.2 := by
  refine forall₂_congr fun f _ => Value.agrees_iff_forall_facing _ ?_ ?_ _ _
  · intro vs ws h
    simp [Value.SameAtom, Value.jsonNumber?] at h
  · intro items items' h
    simp [Value.SameAtom, Value.jsonNumber?] at h

/-- Fields that look equal have not changed, exactly when no slip is among them or another
difference shows. -/
theorem unchanged_of_views_iff {fields : List ComparedField} :
    ((∀ f ∈ fields, (f.view cfg original).eq (f.view cfg replayed) = true) →
        Unchanged cfg fields original replayed) ↔
      DiffersOpenly cfg fields original replayed ∨ SlipFree cfg fields original replayed := by
  simp only [ComparedField.view_eq_iff, unchanged_iff]
  constructor
  · intro h
    by_cases hopen : DiffersOpenly cfg fields original replayed
    · exact .inl hopen
    · -- otherwise every pair is the same or a slip, so by assumption it is the same
      refine .inr fun f hf p hp hslip => hslip.not_sameAtom
        (h (fun f hf => ⟨?_, fun p hp => ?_⟩) f hf p hp)
      · rw [← Bool.not_eq_true]
        exact fun hnan => hopen ⟨f, hf, .inl hnan⟩
      · by_contra hneither
        rw [not_or] at hneither
        exact hopen ⟨f, hf, .inr ⟨p, hp, hneither⟩⟩
  · rintro (⟨f, hf, hnan | ⟨p, hp, hsame, hslip⟩⟩ | hfree) hviews
    · rw [(hviews f hf).1] at hnan
      cases hnan
    · exact absurd ((hviews f hf).2 p hp) (not_or.mpr ⟨hsame, hslip⟩)
    · exact fun f hf p hp => ((hviews f hf).2 p hp).resolve_right (hfree f hf p hp)

/-- The verdict `MATCH` of a comparator that looks at the given fields. -/
theorem category_compareFields_views_iff {eventType : String} {fields : List ComparedField} :
    (compareFields eventType
        (fields.map fun f => (f.key, f.view cfg original, f.view cfg replayed))
        original replayed).category = .match ↔
      replayed.payload.has "error" = false ∧
        ∀ f ∈ fields, (f.view cfg original).eq (f.view cfg replayed) = true := by
  cases herr : replayed.payload.has "error" with
  | true => simp [compareFields, herr]
  | false => rw [category_compareFields_iff herr]; simp

/-- A `MATCH` on the given fields means that nothing has changed, exactly when the replay carries
an error, or another difference shows, or no slip is among the fields. -/
theorem unchanged_of_category_iff {eventType : String} (fields : List ComparedField) :
    ((compareFields eventType
          (fields.map fun f => (f.key, f.view cfg original, f.view cfg replayed))
          original replayed).category = .match →
        Unchanged cfg fields original replayed) ↔
      replayed.payload.has "error" = true ∨ DiffersOpenly cfg fields original replayed ∨
        SlipFree cfg fields original replayed := by
  rw [category_compareFields_views_iff, and_imp, unchanged_of_views_iff]
  cases replayed.payload.has "error" <;> simp

end Fields

/-- A `MATCH` of either comparator can be trusted exactly when the replay carries an error (and
the verdict is no `MATCH`), or the two sides differ where no slip hides it, or no slip occurs. -/
theorem unchanged_of_match_iff (cfg : Config) (original replayed : Event) :
    ((((httpComparator cfg).compare original replayed).category = .match →
        Unchanged cfg httpFields original replayed) ↔
      replayed.payload.has "error" = true ∨ DiffersOpenly cfg httpFields original replayed ∨
        SlipFree cfg httpFields original replayed) ∧
    ((((postgresComparator cfg).compare original replayed).category = .match →
        Unchanged cfg postgresFields original replayed) ↔
      replayed.payload.has "error" = true ∨ DiffersOpenly cfg postgresFields original replayed ∨
        SlipFree cfg postgresFields original replayed) :=
  ⟨unchanged_of_category_iff httpFields, unchanged_of_category_iff postgresFields⟩

/-- A response whose body says whether it is paid. -/
def paidResponse (eventId : String) (body : Json) : Event :=
  .brief .httpResponse eventId "corr_a" 0
    (.ofEntries [("status", .ofInt 200), ("body", body)] (by simp))

/-- `true` became `1`, and the comparator answers `MATCH`. -/
theorem not_unchanged_paid :
    let original := paidResponse "evt_a" ⟨.dict [("paid", .bool true)], by decide⟩
    let replayed := paidResponse "evt_b" ⟨.dict [("paid", .int 1)], by decide⟩
    ((httpComparator {}).compare original replayed).category = .match ∧
      ¬ Unchanged {} httpFields original replayed := by
  refine ⟨by decide, fun h => ?_⟩
  have hbody := h ⟨"body", true⟩ (by simp [httpFields])
  obtain ⟨w, hw, hsame⟩ :=
    (Value.agreesItems_iff.mp hbody.1) ("paid", .bool true) (by simp) (by decide)
  obtain rfl : Value.int 1 = w := Option.some.inj hw
  obtain ⟨a, ha, -⟩ := hsame
  exact absurd ha (by simp [Value.jsonNumber?])

end InfraReplay
