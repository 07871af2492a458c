import InfraReplay.Common.Except
import InfraReplay.Common.Sort
import InfraReplay.Comparison.Engine
import Mathlib.Data.String.Basic

/-!
# The plugin registry

Everything under the entry-point group is put into the slot of the first contract it implements,
under the name it gives itself or else the name of its entry point; the rest of the system asks for
plugins by slot and name. A name that is given twice keeps its place in the slot and gets the later
plugin.

`resolves_of_load` says what callers may rely on: a lookup finds the last plugin that was registered
under the name, `describe` lists what lookups find, in order, and the error of a lookup lists what
could have been asked for. `comparatorFor_eq` says that `comparator_for` is what `compare_run` is
given in `Comparison.Engine`.
-/

namespace InfraReplay

open Python

/-- A contract of the plugins, by its slot. -/
inductive Slot where
  | capture
  | storage
  | redaction
  | comparator
  deriving DecidableEq

/-- The key in `_ABC_BY_SLOT`. -/
def Slot.value : Slot → String
  | .capture => "capture"
  | .storage => "storage"
  | .redaction => "redaction"
  | .comparator => "comparator"

/-- The keys of `_ABC_BY_SLOT`, in order. -/
def Slot.all : List Slot := [.capture, .storage, .redaction, .comparator]

theorem Slot.mem_all (slot : Slot) : slot ∈ Slot.all := by cases slot <;> decide

/-- What an entry point loads. What it does is an `α`. -/
structure PluginObject (α : Type) where
  /-- `isinstance(obj, type)`. -/
  isType : Bool := true
  /-- The contracts it is a subclass of. -/
  contracts : List Slot
  /-- `getattr(obj, "name", "")`. -/
  name : String := ""
  eventType : String := ""
  /-- `f"{cls.__module__}.{cls.__qualname__}"`. -/
  impl : String
  /-- `repr(obj)`. -/
  repr : String
  body : α

/-- An entry point and what it loads. -/
structure EntryPoint (α : Type) where
  name : String
  obj : PluginObject α

section Register

variable {α : Type}

/-- `_slot_for`. -/
def PluginObject.slotFor (obj : PluginObject α) : Option Slot :=
  Slot.all.find? fun slot => obj.isType && decide (slot ∈ obj.contracts)

/-- `getattr(obj, "name", "") or ep_name`. -/
def EntryPoint.registeredName (ep : EntryPoint α) : String :=
  if ep.obj.name = "" then ep.name else ep.obj.name

/-- The error of `_register`. -/
def EntryPoint.refusal (ep : EntryPoint α) : String :=
  "entry point " ++ quoted ep.name ++ " -> " ++ ep.obj.repr ++ " implements no known contract"

end Register

/-- `PluginRegistry`. -/
structure PluginRegistry (α : Type) where
  /-- `_slots`. -/
  slots : Slot → Dict String (PluginObject α)
  nodup : ∀ slot, (slots slot).keys.Nodup

/-- A row of `describe`. -/
structure PluginRow where
  name : String
  slot : Slot
  impl : String
  deriving DecidableEq

namespace PluginRegistry

variable {α : Type}

/-- `PluginRegistry()`. -/
def empty (α : Type) : PluginRegistry α where
  slots _ := []
  nodup _ := .nil

/-- `self._slots[slot][name] = obj`. -/
def put (registry : PluginRegistry α) (slot : Slot) (name : String) (obj : PluginObject α) :
    PluginRegistry α where
  slots := Function.update registry.slots slot ((registry.slots slot).set name obj)
  nodup slot' := by
    by_cases h : slot' = slot
    · subst h
      rw [Function.update_self]
      exact Dict.nodup_keys_set (registry.nodup slot') name obj
    · rw [Function.update_of_ne h]
      exact registry.nodup slot'

/-- `_register`; the error is that of a `PluginError`. -/
def register (registry : PluginRegistry α) (ep : EntryPoint α) :
    Except String (PluginRegistry α) :=
  match ep.obj.slotFor with
  | none => .error ep.refusal
  | some slot => .ok (registry.put slot ep.registeredName ep.obj)

/-- `load`, on a registry that has not been loaded. -/
def load (registry : PluginRegistry α) : List (EntryPoint α) → Except String (PluginRegistry α)
  | [] => .ok registry
  | ep :: eps => do
    let registry ← registry.register ep
    load registry eps

/-- The names in a slot, sorted. -/
def names (registry : PluginRegistry α) (slot : Slot) : List String :=
  (registry.slots slot).keys.sortBy id

/-- The error of `_get`. -/
def unknown (registry : PluginRegistry α) (slot : Slot) (name : String) : String :=
  let known := ", ".intercalate (registry.names slot)
  "no " ++ slot.value ++ " plugin named " ++ quoted name ++ "; known: " ++
    if known = "" then "(none)" else known

/-- `_get`. -/
def get (registry : PluginRegistry α) (slot : Slot) (name : String) :
    Except String (PluginObject α) :=
  match (registry.slots slot).get? name with
  | some cls => .ok cls
  | none => .error (registry.unknown slot name)

/-- `capture`. -/
def capture (registry : PluginRegistry α) (name : String) : Except String (PluginObject α) :=
  registry.get .capture name

/-- `storage`. -/
def storage (registry : PluginRegistry α) (name : String) : Except String (PluginObject α) :=
  registry.get .storage name

/-- `redaction`. -/
def redaction (registry : PluginRegistry α) (name : String) : Except String (PluginObject α) :=
  registry.get .redaction name

/-- `comparator_for`. -/
def comparatorFor (registry : PluginRegistry α) (eventType : String) : Option (PluginObject α) :=
  ((registry.slots .comparator).map Prod.snd).find? fun cls => cls.eventType = eventType

/-- The rows of one slot in `describe`. -/
def rows (registry : PluginRegistry α) (slot : Slot) : List PluginRow :=
  ((registry.slots slot).sortBy Prod.fst).map fun item =>
    { name := item.1, slot := slot, impl := item.2.impl }

/-- `describe`. -/
def describe (registry : PluginRegistry α) : List PluginRow :=
  Slot.all.flatMap registry.rows

/-! ### Loading -/

variable {registry registry' : PluginRegistry α} {eps : List (EntryPoint α)} {slot : Slot}
  {name : String} {cls : PluginObject α}

/-- What an entry point puts into a slot. -/
def entry (slot : Slot) (ep : EntryPoint α) : Option (String × PluginObject α) :=
  if ep.obj.slotFor = some slot then some (ep.registeredName, ep.obj) else none

/-- Registering adds to the slots that the entry point names. -/
theorem slots_register {ep : EntryPoint α} (h : registry.register ep = .ok registry')
    (slot : Slot) :
    registry'.slots slot =
      (entry slot ep).toList.foldl (fun d p => d.set p.1 p.2) (registry.slots slot) := by
  unfold register at h
  cases hslot : ep.obj.slotFor with
  | none =>
    rw [hslot] at h
    cases h
  | some slot' =>
    rw [hslot] at h
    obtain rfl := Except.ok.inj h
    rw [entry, hslot]
    -- one slot is written, and it is the one that the object fits
    by_cases heq : slot' = slot
    · subst heq
      rw [if_pos rfl]
      exact Function.update_self ..
    · rw [if_neg fun h => heq (Option.some.inj h)]
      exact Function.update_of_ne (Ne.symm heq) ..

/-- Each slot is a comprehension over what the entry points put into it. -/
theorem slots_load (h : registry.load eps = .ok registry') (slot : Slot) :
    registry'.slots slot =
      (eps.filterMap (entry slot)).foldl (fun d p => d.set p.1 p.2) (registry.slots slot) := by
  induction eps generalizing registry with
  | nil =>
    obtain rfl := Except.ok.inj h
    rfl
  | cons ep eps ih =>
    obtain ⟨registry₁, hregister, hload⟩ := Except.bind_eq_ok_iff.mp h
    rw [ih hload, slots_register hregister, ← List.foldl_append]
    congr 1
    rw [List.filterMap_cons]
    cases entry slot ep <;> rfl

/-- Loading raises what the first entry point without a contract says. -/
theorem load_eq_error_iff_find? {message : String} :
    registry.load eps = .error message ↔
      ∃ ep, eps.find? (fun ep => ep.obj.slotFor.isNone) = some ep ∧ message = ep.refusal := by
  induction eps generalizing registry with
  | nil =>
    constructor
    · intro h
      cases h
    · rintro ⟨ep, h, -⟩
      cases h
  | cons ep eps ih =>
    have hstep : registry.load (ep :: eps) =
        registry.register ep >>= fun registry => registry.load eps := rfl
    rw [hstep, register, List.find?_cons]
    -- the first entry point that fits no slot stops the loading
    cases ep.obj.slotFor with
    | none =>
      constructor
      · intro h
        exact ⟨ep, rfl, (Except.error.inj h).symm⟩
      · rintro ⟨ep', hep, rfl⟩
        obtain rfl := Option.some.inj hep
        rfl
    | some slot => exact ih

/-- Loading gives up at the first entry point that implements no contract. -/
theorem load_eq_error_iff {message : String} :
    registry.load eps = .error message ↔
      ∃ pre ep post, eps = pre ++ ep :: post ∧ (∀ e ∈ pre, e.obj.slotFor.isSome) ∧
        ep.obj.slotFor = none ∧ message = ep.refusal := by
  rw [load_eq_error_iff_find?]
  simp only [List.find?_eq_some_iff_append, Option.isNone_iff_eq_none, Option.not_isNone]
  constructor
  · rintro ⟨ep, ⟨hnone, pre, post, hsplit, hpre⟩, hmessage⟩
    exact ⟨pre, ep, post, hsplit, hpre, hnone, hmessage⟩
  · rintro ⟨pre, ep, post, hsplit, hpre, hnone, hmessage⟩
    exact ⟨ep, ⟨hnone, pre, post, hsplit, hpre⟩, hmessage⟩

/-! ### Looking up -/

/-- `get` answers what is registered under the name. -/
theorem get_eq_ok_iff :
    registry.get slot name = .ok cls ↔ (registry.slots slot).get? name = some cls := by
  unfold get
  cases (registry.slots slot).get? name with
  | none => simp
  | some cls' => simp

/-- The plugin that was registered last in a slot under a name. -/
def lastRegistered (eps : List (EntryPoint α)) (slot : Slot) (name : String) :
    Option (PluginObject α) :=
  (eps.reverse.find? fun ep =>
    decide (ep.obj.slotFor = some slot) && decide (ep.registeredName = name)).map EntryPoint.obj

/-- What a lookup gives after loading. -/
theorem get?_slots_of_load (h : (empty α).load eps = .ok registry) (slot : Slot) (name : String) :
    (registry.slots slot).get? name = lastRegistered eps slot name := by
  have hslots : registry.slots slot = Dict.ofPairs (eps.filterMap (entry slot)) :=
    slots_load h slot
  rw [hslots, Dict.get?_ofPairs, lastRegistered, ← List.filterMap_reverse, List.find?_filterMap]
  have hpred : ∀ ep : EntryPoint α, (entry slot ep).any (fun p => decide (p.1 = name)) =
      (decide (ep.obj.slotFor = some slot) && decide (ep.registeredName = name)) := by
    intro ep
    unfold entry
    by_cases hslot : ep.obj.slotFor = some slot <;> simp [hslot]
  simp only [hpred]
  cases hfind : eps.reverse.find? fun ep =>
      decide (ep.obj.slotFor = some slot) && decide (ep.registeredName = name) with
  | none => rfl
  | some ep =>
    have hep := List.find?_some hfind
    rw [Bool.and_eq_true, decide_eq_true_eq] at hep
    rw [Option.bind_some, entry, if_pos hep.1]
    rfl

/-! ### What callers may rely on -/

/-- What the lookups of a registry have to do with the entry points it was loaded from. -/
structure Resolves (registry : PluginRegistry α) (eps : List (EntryPoint α)) : Prop where
  /-- A lookup finds what was registered last. -/
  get : ∀ slot name cls, registry.get slot name = .ok cls ↔ lastRegistered eps slot name = some cls
  /-- What is described is what lookups find. -/
  mem_describe : ∀ row, row ∈ registry.describe ↔
    ∃ cls, registry.get row.slot row.name = .ok cls ∧ row.impl = cls.impl
  /-- Nothing is described twice, and the rows are sorted. -/
  sorted : registry.describe.Pairwise fun row row' =>
    Slot.all.idxOf row.slot < Slot.all.idxOf row'.slot ∨ row.slot = row'.slot ∧ row.name < row'.name
  /-- A lookup that fails says what it could have found. -/
  unknown : ∀ slot name message, registry.get slot name = .error message →
    ∃ known, message = "no " ++ slot.value ++ " plugin named " ++ quoted name ++ "; known: " ++
        (if known = "" then "(none)" else known) ∧
      known = ", ".intercalate
        ((registry.describe.filter fun row => row.slot = slot).map PluginRow.name)
  /-- A comparator is found for an event type when one that can be looked up declares it. -/
  comparator : ∀ eventType,
    (registry.comparatorFor eventType).isSome ↔
      ∃ name cls, registry.get .comparator name = .ok cls ∧ cls.eventType = eventType
  comparator_get : ∀ eventType cls, registry.comparatorFor eventType = some cls →
    cls.eventType = eventType ∧ ∃ name, registry.get .comparator name = .ok cls

/-- The rows of a slot are its registered plugins. -/
theorem mem_rows {row : PluginRow} :
    row ∈ registry.rows slot ↔
      row.slot = slot ∧ ∃ cls, registry.get slot row.name = .ok cls ∧ row.impl = cls.impl := by
  simp only [rows, List.mem_map, List.mem_sortBy, get_eq_ok_iff,
    Dict.get?_eq_some_iff (registry.nodup slot)]
  constructor
  · rintro ⟨item, hitem, rfl⟩
    exact ⟨rfl, item.2, hitem, rfl⟩
  · rintro ⟨rfl, cls, hitem, himpl⟩
    exact ⟨(row.name, cls), hitem, by rw [← himpl]⟩

/-- `describe` lists every registered plugin. -/
theorem mem_describe {row : PluginRow} :
    row ∈ registry.describe ↔
      ∃ cls, registry.get row.slot row.name = .ok cls ∧ row.impl = cls.impl := by
  rw [describe, List.mem_flatMap]
  constructor
  · rintro ⟨slot, -, hrow⟩
    obtain ⟨rfl, h⟩ := mem_rows.mp hrow
    exact h
  · intro h
    exact ⟨row.slot, Slot.mem_all row.slot, mem_rows.mpr ⟨rfl, h⟩⟩

/-- The rows of a slot are sorted by their names, which are all different. -/
theorem pairwise_rows (registry : PluginRegistry α) (slot : Slot) :
    (registry.rows slot).Pairwise fun row row' => row.slot = row'.slot ∧ row.name < row'.name := by
  have hne : ((registry.slots slot).sortBy Prod.fst).Pairwise fun a b => a.1 ≠ b.1 :=
    List.pairwise_map.mp
      (((List.sortBy_perm _ _).map Prod.fst).nodup_iff.mpr (registry.nodup slot))
  refine List.pairwise_map.mpr (((List.sortBy_pairwise _ _).and hne).imp ?_)
  rintro a b ⟨hle, hne⟩
  exact ⟨rfl, lt_of_le_of_ne hle hne⟩

/-- It lists them slot by slot, by name within a slot. -/
theorem pairwise_describe (registry : PluginRegistry α) :
    registry.describe.Pairwise fun row row' =>
      Slot.all.idxOf row.slot < Slot.all.idxOf row'.slot ∨
        row.slot = row'.slot ∧ row.name < row'.name := by
  refine List.pairwise_flatMap.mpr ⟨fun slot _ => (registry.pairwise_rows slot).imp .inr, ?_⟩
  have hslots : Slot.all.Pairwise fun a b => Slot.all.idxOf a < Slot.all.idxOf b := by decide
  refine hslots.imp fun hlt row hrow row' hrow' => .inl ?_
  rw [(mem_rows.mp hrow).1, (mem_rows.mp hrow').1]
  exact hlt

/-- What is described of a slot are its names. -/
theorem map_name_describe (registry : PluginRegistry α) (slot : Slot) :
    (registry.describe.filter fun row => row.slot = slot).map PluginRow.name =
      registry.names slot := by
  have hrows : (registry.describe.filter fun row => row.slot = slot) = registry.rows slot :=
    List.filter_flatMap_label id (fun slot _ row hrow => (mem_rows.mp hrow).1) (by decide)
      (Slot.mem_all slot)
  rw [hrows, rows, List.map_map, names, Dict.keys, List.sortBy_map]
  rfl

/-- The comparator for a type is registered and says that type. -/
theorem comparatorFor_eq_some {eventType : String}
    (h : registry.comparatorFor eventType = some cls) :
    cls.eventType = eventType ∧ ∃ name, registry.get .comparator name = .ok cls := by
  unfold comparatorFor at h
  have htype := List.find?_some h
  refine ⟨of_decide_eq_true htype, ?_⟩
  obtain ⟨⟨name, cls'⟩, hitem, rfl⟩ := List.mem_map.mp (List.mem_of_find?_eq_some h)
  exact ⟨name, get_eq_ok_iff.mpr ((Dict.get?_eq_some_iff (registry.nodup _)).mpr hitem)⟩

/-- There is one exactly when some registered comparator says the type. -/
theorem isSome_comparatorFor {eventType : String} :
    (registry.comparatorFor eventType).isSome ↔
      ∃ name cls, registry.get .comparator name = .ok cls ∧ cls.eventType = eventType := by
  constructor
  · intro h
    obtain ⟨cls, hcls⟩ := Option.isSome_iff_exists.mp h
    obtain ⟨htype, name, hget⟩ := comparatorFor_eq_some hcls
    exact ⟨name, cls, hget, htype⟩
  · rintro ⟨name, cls, hget, htype⟩
    rw [comparatorFor, List.find?_isSome]
    have hitem := Dict.mem_of_get?_eq_some (get_eq_ok_iff.mp hget)
    exact ⟨cls, List.mem_map_of_mem hitem, decide_eq_true htype⟩

/-- **The registry.** A loaded registry is the entry points, by slot and name. -/
theorem resolves_of_load (h : (empty α).load eps = .ok registry) : registry.Resolves eps where
  get slot name cls := by rw [get_eq_ok_iff, get?_slots_of_load h]
  mem_describe _ := mem_describe
  sorted := registry.pairwise_describe
  unknown slot name message herror := by
    refine ⟨_, ?_, (congrArg _ (registry.map_name_describe slot)).symm⟩
    unfold get at herror
    cases hget : (registry.slots slot).get? name with
    | some cls =>
      rw [hget] at herror
      cases herror
    | none =>
      rw [hget] at herror
      exact (Except.error.inj herror).symm
  comparator _ := isSome_comparatorFor
  comparator_get _ _ := comparatorFor_eq_some

/-- The comparators, as `compare_run` asks for them. -/
def comparatorPlugins (registry : PluginRegistry α)
    (compare : α → Event → Event → ComparisonResult) : List ComparatorPlugin :=
  (registry.slots .comparator).map fun item =>
    { name := item.2.name, eventType := item.2.eventType, compare := compare item.2.body }

/-- `compare_run` is given the comparator that the registry finds. -/
theorem comparatorFor_eq (registry : PluginRegistry α)
    (compare : α → Event → Event → ComparisonResult) (eventType : String) :
    InfraReplay.comparatorFor (registry.comparatorPlugins compare) eventType =
      (registry.comparatorFor eventType).map fun cls =>
        { name := cls.name, eventType := cls.eventType, compare := compare cls.body } := by
  unfold InfraReplay.comparatorFor comparatorPlugins comparatorFor
  rw [List.find?_map, List.find?_map, Option.map_map]
  rfl

end PluginRegistry

/-! ### The plugins of the package -/

/-- An entry point and its class, which gives itself the same name. -/
def builtIn (slot : Slot) (name module qualname : String) (eventType : String := "") :
    EntryPoint Unit where
  name := name
  obj :=
    { contracts := [slot], name := name, eventType := eventType, impl := module ++ "." ++ qualname,
      repr := "<class '" ++ module ++ "." ++ qualname ++ "'>", body := () }

/-- The entry points of the package itself. -/
def builtIns : List (EntryPoint Unit) := [
  builtIn .capture "mock_capture" "infrareplay.plugins.mock_capture.plugin" "MockCapturePlugin",
  builtIn .capture "http_capture" "infrareplay.plugins.http_capture.plugin" "HttpCapturePlugin",
  builtIn .capture "postgres_capture" "infrareplay.plugins.postgres_capture.plugin"
    "PostgresCapturePlugin",
  builtIn .storage "storage_fs" "infrareplay.plugins.storage_fs.plugin" "FilesystemStoragePlugin",
  builtIn .redaction "redaction_default" "infrareplay.plugins.redaction_default.plugin"
    "DefaultRedactionPlugin",
  builtIn .comparator "http_comparator" "infrareplay.plugins.comparators.http" "HttpComparator"
    "http.response",
  builtIn .comparator "postgres_comparator" "infrareplay.plugins.comparators.postgres"
    "PostgresComparator" "postgres.result"]

theorem resolves_of_load_builtIns :
    ∃ registry, (PluginRegistry.empty Unit).load builtIns = .ok registry ∧
      registry.Resolves builtIns ∧
      registry.describe.map PluginRow.name = ["http_capture", "mock_capture", "postgres_capture",
        "storage_fs", "redaction_default", "http_comparator", "postgres_comparator"] :=
  ⟨_, rfl, PluginRegistry.resolves_of_load rfl, by decide⟩

end InfraReplay
