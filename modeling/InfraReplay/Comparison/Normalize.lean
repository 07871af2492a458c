import InfraReplay.Python.Text
import InfraReplay.Schema

/-!
# Normalisation: erase what changes on every run by design

`normalize` rewrites generated values to their shape before a comparison, and drops the headers
that are set per hop and the configured fields. `SameShape` is the relation the rewriting is meant
to forget: two strings of one volatile class.

* `placeholder_of_sameShape`: two strings of one class have one placeholder. The classes are
  disjoint, so the order in which `_placeholder` tries them does not matter.
* `normalize_congr`: values that differ in such strings only, at any depth, normalise to the same
  value.
-/

namespace InfraReplay

open Python

/-- The settings the modelled code reads from the environment. -/
structure Config where
  /-- `IGNORE_FIELDS`, the payload keys dropped before a comparison. -/
  ignoreFields : List String := []
  /-- `CAPTURE_MAX_BODY_BYTES`. -/
  captureMaxBodyBytes : ℤ := 64 * 1024

/-! ### The volatile classes -/

/-- `_UUID_RE`. -/
def uuidClasses : List (Char → Bool) :=
  List.replicate 8 isHex ++ [lit '-'] ++ List.replicate 4 isHex ++ [lit '-'] ++
    List.replicate 4 isHex ++ [lit '-'] ++ List.replicate 4 isHex ++ [lit '-'] ++
    List.replicate 12 isHex

/-- `_UUID_RE.match(value)`. -/
def isUuid (value : String) : Bool :=
  match matchSeq uuidClasses value.toList with
  | some rest => atEnd rest
  | none => false

/-- The date and the time of day of `_TIMESTAMP_RE`. -/
def timestampClasses : List (Char → Bool) :=
  List.replicate 4 isDecimal ++ [lit '-'] ++ List.replicate 2 isDecimal ++ [lit '-'] ++
    List.replicate 2 isDecimal ++ [fun c => c = 'T' || c = ' '] ++
    List.replicate 2 isDecimal ++ [lit ':'] ++ List.replicate 2 isDecimal ++ [lit ':'] ++
    List.replicate 2 isDecimal

/-- `(\.\d+)?`, which takes every digit it can: none of what may follow starts with a digit. -/
def dropFraction : List Char → List Char
  | '.' :: c :: cs => if isDecimal c then cs.dropWhile isDecimal else '.' :: c :: cs
  | cs => cs

/-- `(Z|[+-]\d{2}:?\d{2})?$`. -/
def isZone : List Char → Bool
  | 'Z' :: cs => atEnd cs
  | c :: cs =>
    if c = '+' || c = '-' then
      match matchSeq [isDecimal, isDecimal] cs with
      -- the colon is optional, and no digit, so there is nothing to try twice
      | some (':' :: cs') =>
        match matchSeq [isDecimal, isDecimal] cs' with
        | some rest => atEnd rest
        | none => false
      | some cs' =>
        match matchSeq [isDecimal, isDecimal] cs' with
        | some rest => atEnd rest
        | none => false
      | none => false
    else atEnd (c :: cs)
  | [] => true

/-- `_TIMESTAMP_RE.match(value)`. -/
def isTimestamp (value : String) : Bool :=
  match matchSeq timestampClasses value.toList with
  | some rest => isZone (dropFraction rest)
  | none => false

/-- `_PREFIXED_ID_RE.match(value)`: the underscore is no letter and the end no hexadecimal digit,
so both repetitions take all they can. -/
def isPrefixedId (value : String) : Bool :=
  let letters := value.toList.takeWhile isLetter
  2 ≤ letters.length && letters.length ≤ 6 &&
    match value.toList.dropWhile isLetter with
    | '_' :: cs => 8 ≤ (cs.takeWhile isHex).length && atEnd (cs.dropWhile isHex)
    | _ => false

/-! ### Placeholders -/

/-- The placeholder of a UUID. -/
def uuidPlaceholder : String := "<uuid>"

/-- The placeholder of a timestamp. -/
def timestampPlaceholder : String := "<timestamp>"

/-- The placeholder of a generated identifier. -/
def idPlaceholder : String := "<id>"

/-- `_placeholder`. -/
def placeholder (value : String) : String :=
  -- in the order of the source; `placeholder_of_sameShape` says that the order does not matter
  if isUuid value then uuidPlaceholder
  else if isTimestamp value then timestampPlaceholder
  else if isPrefixedId value then idPlaceholder
  else value

/-- `_VOLATILE_HEADERS`. -/
def volatileHeaders : List String :=
  ["date", "server", "etag", "content-length", "set-cookie", "x-request-id",
    "x-infrareplay-correlation-id", "x-infrareplay-recording-id"]

/-- The entry under `k` takes part in a comparison. -/
def Config.keeps (cfg : Config) (k : String) : Bool :=
  lower k ∉ volatileHeaders && k ∉ cfg.ignoreFields

mutual

/-- `normalize`. -/
def normalize (cfg : Config) : Value → Value
  | .dict items => .dict (normalizeItems cfg items)
  | .list vs => .list (normalizeList cfg vs)
  | .str s => .str (placeholder s)
  | v => v

def normalizeList (cfg : Config) : List Value → List Value
  | [] => []
  | v :: vs => normalize cfg v :: normalizeList cfg vs

def normalizeItems (cfg : Config) : List (String × Value) → List (String × Value)
  | [] => []
  | (k, v) :: items =>
    -- a dropped header or field is gone with its value, at any depth
    if cfg.keeps k then (k, normalize cfg v) :: normalizeItems cfg items
    else normalizeItems cfg items

end

variable {cfg : Config}

/-- On lists, normalizing is `map`. -/
theorem normalizeList_eq (vs : List Value) : normalizeList cfg vs = vs.map (normalize cfg) := by
  induction vs with
  | nil => rfl
  | cons v vs ih => simp [normalizeList, ih]

/-- On the items of a dictionary, normalizing drops the ignored keys and maps the values. -/
theorem normalizeItems_eq (items : List (String × Value)) :
    normalizeItems cfg items =
      (items.filter fun p => cfg.keeps p.1).map fun p => (p.1, normalize cfg p.2) := by
  induction items with
  | nil => rfl
  | cons p items ih =>
    obtain ⟨k, v⟩ := p
    rw [normalizeItems]
    by_cases hk : cfg.keeps k = true <;> simp [hk, ih]

/-- Normalisation keeps the keys of every dictionary distinct. -/
theorem wf_normalize {v : Value} (h : v.wf = true) : (normalize cfg v).wf = true := by
  induction v using Value.induct with
  -- a list by its elements, a dictionary by its keys and its values
  | hlist vs ih =>
    rw [normalize, normalizeList_eq, Value.wf_list]
    intro w hw
    obtain ⟨v, hv, rfl⟩ := List.mem_map.mp hw
    exact ih v hv (Value.wf_list.mp h v hv)
  | hdict items ih =>
    obtain ⟨hnd, hvals⟩ := Value.wf_dict.mp h
    rw [normalize, normalizeItems_eq, Value.wf_dict]
    constructor
    · rw [List.map_map]
      exact hnd.sublist ((List.filter_sublist).map _)
    · intro p hp
      obtain ⟨q, hq, rfl⟩ := List.mem_map.mp hp
      have hq' := (List.mem_filter.mp hq).1
      exact ih q hq' (hvals q hq')
  | hnone => rfl
  | hbool b => rfl
  | hint i => rfl
  | hfloat f => rfl
  | hstr s => rfl

/-- Normalisation makes and drops no NaN at the top. -/
theorem isNan_normalize (v : Value) : (normalize cfg v).isNan = v.isNan := by
  cases v <;> rfl

/-! ### Same shape, same placeholder -/

/-- Two strings of one volatile class. -/
inductive SameShape (s t : String) : Prop where
  | uuid (hs : isUuid s = true) (ht : isUuid t = true)
  | timestamp (hs : isTimestamp s = true) (ht : isTimestamp t = true)
  | prefixedId (hs : isPrefixedId s = true) (ht : isPrefixedId t = true)

/-- A UUID has hexadecimal digits before its first dash. -/
private theorem isUuid_getElem?_four {s : String} (h : isUuid s = true) :
    ∃ c, s.toList[4]? = some c ∧ isHex c = true := by
  rw [isUuid] at h
  split at h
  next rest hm => exact matchSeq_getElem? hm rfl
  next => cases h

private theorem isUuid_getElem?_eight {s : String} (h : isUuid s = true) :
    s.toList[8]? = some '-' := by
  rw [isUuid] at h
  split at h
  next rest hm =>
    obtain ⟨c, hc, hdash⟩ := matchSeq_getElem? (i := 8) hm rfl
    rw [hc]
    simpa [lit] using hdash
  next => cases h

private theorem isTimestamp_getElem?_four {s : String} (h : isTimestamp s = true) :
    s.toList[4]? = some '-' := by
  rw [isTimestamp] at h
  split at h
  next rest hm =>
    obtain ⟨c, hc, hdash⟩ := matchSeq_getElem? (i := 4) hm rfl
    rw [hc]
    simpa [lit] using hdash
  next => cases h

/-- A generated identifier starts with letters, an underscore and at least eight hexadecimal
digits, so its first nine characters contain no dash. -/
private theorem isPrefixedId_getElem? {s : String} (h : isPrefixedId s = true) {i : ℕ}
    (hi : i ≤ 8) : s.toList[i]? ≠ some '-' := by
  rw [isPrefixedId] at h
  simp only [Bool.and_eq_true, decide_eq_true_eq] at h
  obtain ⟨⟨hlo, -⟩, htail⟩ := h
  split at htail
  next cs hcs =>
    simp only [Bool.and_eq_true, decide_eq_true_eq] at htail
    -- letters, the underscore and digits make up the prefix the dash would lie in
    have hsplit : s.toList = (s.toList.takeWhile isLetter ++ '_' :: cs.takeWhile isHex) ++
        cs.dropWhile isHex := by
      rw [List.append_assoc, List.cons_append, List.takeWhile_append_dropWhile, ← hcs,
        List.takeWhile_append_dropWhile]
    intro hdash
    rw [hsplit, List.getElem?_append_left (by simp; omega)] at hdash
    have hmem := List.mem_of_getElem? hdash
    rw [List.mem_append, List.mem_cons] at hmem
    rcases hmem with hm | hm | hm
    · exact absurd (List.mem_takeWhile_imp hm) (by decide)
    · exact absurd hm (by decide)
    · exact absurd (List.mem_takeWhile_imp hm) (by decide)
  next => cases htail

private theorem not_isUuid_of_isTimestamp {s : String} (h : isTimestamp s = true) :
    isUuid s = false := by
  rw [Bool.eq_false_iff]
  intro hu
  -- the fifth character is a dash and a hexadecimal digit
  obtain ⟨c, hc, hhex⟩ := isUuid_getElem?_four hu
  rw [isTimestamp_getElem?_four h, Option.some.injEq] at hc
  subst hc
  exact absurd hhex (by decide)

private theorem not_isUuid_of_isPrefixedId {s : String} (h : isPrefixedId s = true) :
    isUuid s = false := by
  rw [Bool.eq_false_iff]
  exact fun hu => isPrefixedId_getElem? h le_rfl (isUuid_getElem?_eight hu)

private theorem not_isTimestamp_of_isPrefixedId {s : String} (h : isPrefixedId s = true) :
    isTimestamp s = false := by
  rw [Bool.eq_false_iff]
  exact fun ht => isPrefixedId_getElem? h (by decide) (isTimestamp_getElem?_four ht)

/-- A UUID reads as one. -/
theorem placeholder_of_isUuid {s : String} (h : isUuid s = true) :
    placeholder s = uuidPlaceholder := by
  simp [placeholder, h]

/-- A timestamp reads as one: it is no UUID. -/
theorem placeholder_of_isTimestamp {s : String} (h : isTimestamp s = true) :
    placeholder s = timestampPlaceholder := by
  simp [placeholder, h, not_isUuid_of_isTimestamp h]

/-- A prefixed id reads as one: it is neither of the others. -/
theorem placeholder_of_isPrefixedId {s : String} (h : isPrefixedId s = true) :
    placeholder s = idPlaceholder := by
  simp [placeholder, h, not_isUuid_of_isPrefixedId h, not_isTimestamp_of_isPrefixedId h]

/-- Strings of one class have one placeholder. -/
theorem placeholder_of_sameShape {s t : String} (h : SameShape s t) :
    placeholder s = placeholder t := by
  cases h with
  | uuid hs ht => rw [placeholder_of_isUuid hs, placeholder_of_isUuid ht]
  | timestamp hs ht => rw [placeholder_of_isTimestamp hs, placeholder_of_isTimestamp ht]
  | prefixedId hs ht => rw [placeholder_of_isPrefixedId hs, placeholder_of_isPrefixedId ht]

/-! ### Values that differ in volatile strings only -/

mutual

/-- `w` is `v` with volatile strings, at any depth, replaced by strings of their class. -/
def Resembles : Value → Value → Prop
  | .str s, .str t => s = t ∨ SameShape s t
  | .list vs, .list ws => ResemblesList vs ws
  | .dict items, .dict items' => ResemblesItems items items'
  | v, w => v = w

def ResemblesList : List Value → List Value → Prop
  | [], [] => True
  | v :: vs, w :: ws => Resembles v w ∧ ResemblesList vs ws
  | _, _ => False

def ResemblesItems : List (String × Value) → List (String × Value) → Prop
  | [], [] => True
  | (k, v) :: items, (k', w) :: items' => k = k' ∧ Resembles v w ∧ ResemblesItems items items'
  | _, _ => False

end

private theorem normalizeList_congr {vs ws : List Value}
    (ih : ∀ v ∈ vs, ∀ w, Resembles v w → normalize cfg v = normalize cfg w)
    (h : ResemblesList vs ws) : normalizeList cfg vs = normalizeList cfg ws := by
  induction vs generalizing ws with
  | nil =>
    cases ws with
    | nil => rfl
    | cons w ws => simp [ResemblesList] at h
  | cons v vs ihvs =>
    cases ws with
    | nil => simp [ResemblesList] at h
    | cons w ws =>
      rw [ResemblesList] at h
      rw [normalizeList, normalizeList, ih v (by simp) w h.1,
        ihvs (fun v' hv' => ih v' (by simp [hv'])) h.2]

private theorem normalizeItems_congr {items items' : List (String × Value)}
    (ih : ∀ p ∈ items, ∀ w, Resembles p.2 w → normalize cfg p.2 = normalize cfg w)
    (h : ResemblesItems items items') : normalizeItems cfg items = normalizeItems cfg items' := by
  induction items generalizing items' with
  | nil =>
    cases items' with
    | nil => rfl
    | cons q items' => simp [ResemblesItems] at h
  | cons p items ihitems =>
    obtain ⟨k, v⟩ := p
    cases items' with
    | nil => simp [ResemblesItems] at h
    | cons q items' =>
      obtain ⟨k', w⟩ := q
      rw [ResemblesItems] at h
      obtain ⟨rfl, hvw, hrest⟩ := h
      rw [normalizeItems, normalizeItems, ih (k, v) (by simp) w hvw,
        ihitems (fun p hp => ih p (by simp [hp])) hrest]

/-- Normalisation forgets the choice of every volatile string. -/
theorem normalize_congr {v w : Value} (h : Resembles v w) :
    normalize cfg v = normalize cfg w := by
  induction v using Value.induct generalizing w with
  | hstr s =>
    cases w with
    | str t =>
      rw [Resembles] at h
      rcases h with rfl | hst
      · rfl
      -- two volatile strings of one shape get one placeholder
      · rw [normalize, normalize, placeholder_of_sameShape hst]
    | _ => simp [Resembles] at h
  | hlist vs ih =>
    cases w with
    | list ws =>
      rw [Resembles] at h
      rw [normalize, normalize, normalizeList_congr (fun v hv w => ih v hv) h]
    | _ => simp [Resembles] at h
  | hdict items ih =>
    cases w with
    | dict items' =>
      rw [Resembles] at h
      rw [normalize, normalize, normalizeItems_congr (fun p hp w => ih p hp) h]
    | _ => simp [Resembles] at h
  | hnone => cases w <;> simp_all [Resembles]
  | hbool b => cases w <;> simp_all [Resembles]
  | hint i => cases w <;> simp_all [Resembles]
  | hfloat f => cases w <;> simp_all [Resembles]

end InfraReplay
