import InfraReplay.Common.Except
import InfraReplay.Recording.Portable

/-!
# What `parse_bundle` raises

The body of the `try` can raise exceptions of five kinds, and only three of them are listed behind
it; the comparison with `BUNDLE_VERSION` stands outside. So `parse_bundle` raises something else
than `BundleError` for a bundle version that is no number, and for an event that is no object or
has a version below the current one, when the loop gets to it (`failsOnlyWithBundleError_iff`).
-/

namespace InfraReplay

open Python

/-- A validated recording has the events it was given. -/
structure Models.KeepsEvents (models : Models) : Prop where
  events : ∀ items events r, models.validateRecording items events = .ok r → r.events = events

/-- Validation that accepts an event takes it as it is. -/
theorem strictModels_keepsEvents : strictModels.KeepsEvents where
  events items events r h := by
    simp only [strictModels, bind, Except.bind] at h
    -- every field is read before the recording is built
    repeat' split at h
    all_goals cases h
    rfl

/-! ### One event -/

/-- The event that an entry of the document is read as. -/
def ReadAs (models : Models) (raw : Value) (event : Event) : Prop :=
  ∃ items, raw = .dict items ∧ models.validateEvent items = .ok event

/-- The entry is no object, or its version is below the current one. -/
def Escapes : Value → Prop
  | .dict raw => isLess (versionOf raw) schemaVersion = .ok true
  | _ => True

/-- The exceptions that are turned into a `BundleError`. -/
def IsCaught (e : Error) : Prop := ∃ message, asBundleError e = .bundleError message

theorem isCaught_typeError (message : String) : IsCaught (.typeError message) := ⟨_, rfl⟩

theorem isCaught_validationError (message : String) : IsCaught (.validationError message) :=
  ⟨_, rfl⟩

theorem isCaught_keyError (key : String) : IsCaught (.keyError key) := ⟨_, rfl⟩

theorem not_isCaught_valueError (message : String) : ¬IsCaught (.valueError message) := nofun

theorem not_isCaught_attributeError (message : String) : ¬IsCaught (.attributeError message) :=
  nofun

/-- A version below the current one is refused, any other number is let through. -/
theorem upgraded_dict_cases (raw : Document) :
    (isLess (versionOf raw) schemaVersion = .ok true ∧
        ∃ message, upgraded (.dict raw) = .error (.valueError message)) ∨
      (isLess (versionOf raw) schemaVersion ≠ .ok true ∧ upgraded (.dict raw) = .ok raw) ∨
      (isLess (versionOf raw) schemaVersion ≠ .ok true ∧
        ∃ message, upgraded (.dict raw) = .error (.typeError message)) := by
  have hupgraded : upgraded (.dict raw) = (isAtLeast (versionOf raw) schemaVersion >>= fun high =>
      if high then pure raw else Migrations.empty.upgrade raw schemaVersion) := rfl
  rw [hupgraded, Migrations.upgrade_empty]
  cases hless : isLess (versionOf raw) schemaVersion with
  | error e =>
    obtain ⟨message, hleast⟩ := isAtLeast_error hless
    exact .inr (.inr ⟨nofun, message, by rw [hleast]; rfl⟩)
  | ok low =>
    cases low with
    | true => exact .inl ⟨rfl, _, by rw [isAtLeast_of_isLess hless]; rfl⟩
    | false =>
      -- NaN is neither below the version nor at least as large, and the loop leaves it alone
      refine .inr (.inl ⟨by simp, ?_⟩)
      obtain ⟨high, hleast⟩ := exists_isAtLeast hless
      cases high <;> rw [hleast] <;> rfl

section Parse

variable {models : Models} {raw : Value} {event : Event}

/-- What `_upgraded` lets through is an object, as it is. -/
theorem of_upgraded {items : Document} (h : upgraded raw = .ok items) :
    ¬Escapes raw ∧ raw = .dict items := by
  cases raw with
  | dict items' =>
    rcases upgraded_dict_cases items' with ⟨hless, message, hup⟩ | ⟨hless, hup⟩ |
      ⟨hless, message, hup⟩
    · rw [hup] at h
      cases h
    · rw [hup] at h
      cases h
      exact ⟨hless, rfl⟩
    · rw [hup] at h
      cases h
  | _ => cases h

/-- What `_upgraded` raises is caught exactly when the entry does not escape. -/
theorem isCaught_of_upgraded {e : Error} (h : upgraded raw = .error e) :
    IsCaught e ↔ ¬Escapes raw := by
  cases raw with
  | dict items =>
    rw [Escapes]
    rcases upgraded_dict_cases items with ⟨hless, message, hup⟩ | ⟨hless, hup⟩ |
      ⟨hless, message, hup⟩
    · rw [hup] at h
      cases h
      simp [hless, not_isCaught_valueError]
    · rw [hup] at h
      cases h
    · rw [hup] at h
      cases h
      simp [hless, isCaught_typeError]
  | _ =>
    -- only an object has `get`
    cases h
    simp [Escapes, not_isCaught_attributeError]

/-- An entry that is parsed does not escape, and it is parsed into the event it is read as. -/
theorem of_parseEvent (h : parseEvent models raw = .ok event) :
    ¬Escapes raw ∧ ReadAs models raw event := by
  obtain ⟨items, hup, hvalid⟩ := Except.bind_eq_ok_iff.mp h
  obtain ⟨hescapes, hraw⟩ := of_upgraded hup
  exact ⟨hescapes, items, hraw, Except.mapError_eq_ok_iff.mp hvalid⟩

/-- What an entry raises is caught exactly when the entry does not escape. -/
theorem isCaught_of_parseEvent {e : Error} (h : parseEvent models raw = .error e) :
    IsCaught e ↔ ¬Escapes raw := by
  rcases Except.bind_eq_error_iff.mp h with hup | ⟨items, hup, hinvalid⟩
  · exact isCaught_of_upgraded hup
  · -- an object that is let through, and that is no event
    obtain ⟨message, -, rfl⟩ := Except.mapError_eq_error_iff.mp hinvalid
    exact iff_of_true (isCaught_validationError message) (of_upgraded hup).1

/-! ### The document -/

/-- The loop stops at the first entry that raises. -/
theorem parseEvents_eq_error {raws : List Value} {e : Error}
    (h : parseEvents models raws = .error e) : ∃ pre raw post, raws = pre ++ raw :: post ∧
      (∀ raw' ∈ pre, ∃ event, parseEvent models raw' = .ok event) ∧
      parseEvent models raw = .error e := by
  induction raws with
  | nil => cases h
  | cons raw raws ih =>
    rcases Except.bind_eq_error_iff.mp h with hraw | ⟨event, hraw, hrest⟩
    · exact ⟨[], raw, raws, rfl, by simp, hraw⟩
    rcases Except.bind_eq_error_iff.mp hrest with hrest | ⟨events, -, hrest⟩
    · obtain ⟨pre, raw', post, rfl, hpre, hraw'⟩ := ih hrest
      exact ⟨raw :: pre, raw', post, rfl, List.forall_mem_cons.mpr ⟨⟨event, hraw⟩, hpre⟩, hraw'⟩
    · cases hrest

/-- An entry that raises behind entries that do not decides what the loop raises. -/
theorem parseEvents_of_error {pre post : List Value} {e : Error}
    (hpre : ∀ raw' ∈ pre, ∃ event, parseEvent models raw' = .ok event)
    (hraw : parseEvent models raw = .error e) :
    parseEvents models (pre ++ raw :: post) = .error e := by
  induction pre with
  | nil =>
    rw [List.nil_append, parseEvents, hraw]
    rfl
  | cons raw' pre ih =>
    obtain ⟨⟨event, hevent⟩, hpre⟩ := List.forall_mem_cons.mp hpre
    rw [List.cons_append, parseEvents, hevent, ih hpre]
    rfl

/-- Events that parse were validated one by one. -/
theorem forall₂_of_parseEvents {raws : List Value} {events : List Event}
    (h : parseEvents models raws = .ok events) : List.Forall₂ (ReadAs models) raws events := by
  induction raws generalizing events with
  | nil =>
    cases h
    exact .nil
  | cons raw raws ih =>
    obtain ⟨event, hraw, hloop⟩ := Except.bind_eq_ok_iff.mp h
    obtain ⟨rest, hrest, hevents⟩ := Except.bind_eq_ok_iff.mp hloop
    cases hevents
    exact .cons (of_parseEvent hraw).2 (ih hrest)

/-- What the loop goes through raises `TypeError` or nothing. -/
theorem isCaught_of_elements {v : Value} {e : Error} (h : elements v = .error e) : IsCaught e := by
  cases v <;> cases h <;> exact isCaught_typeError _

/-- What the recording's own validation raises is caught. -/
theorem isCaught_of_parseRecording {raw : Option Value} {events : List Event} {e : Error}
    (h : parseRecording models raw events = .error e) : IsCaught e := by
  unfold parseRecording at h
  split at h
  next =>
    cases h
    exact isCaught_keyError _
  next items =>
    split_ifs at h
    · cases h
      exact isCaught_typeError _
    · obtain ⟨message, -, rfl⟩ := Except.mapError_eq_error_iff.mp h
      exact isCaught_validationError message
  next =>
    cases h
    exact isCaught_typeError _

/-- A recording that parses has the events that were parsed. -/
theorem events_of_parseRecording (hmodels : models.KeepsEvents) {raw : Option Value}
    {events : List Event} {r : Recording} (h : parseRecording models raw events = .ok r) :
    r.events = events := by
  unfold parseRecording at h
  split at h
  next => cases h
  next items =>
    split_ifs at h
    exact hmodels.events _ _ _ (Except.mapError_eq_ok_iff.mp h)
  next => cases h

variable (models) (doc : Document)

/-- The entries of the document. -/
def rawEvents : Except Error (List Value) := elements ((doc.get? "events").getD (.list []))

/-- A parsed recording has the events of the document, one for one and in order, and whatever else
happens is a `BundleError`. -/
def FailsOnlyWithBundleError : Prop :=
  match parseBundle models doc with
  | .ok r => ∃ raws, rawEvents doc = .ok raws ∧ List.Forall₂ (ReadAs models) raws r.events
  | .error e => ∃ message, e = .bundleError message

/-- No entry escapes among those that the loop gets to. -/
def NoneEscapes : Prop :=
  ∀ pre raw post, rawEvents doc = .ok (pre ++ raw :: post) →
    (∀ raw' ∈ pre, ∃ event, parseEvent models raw' = .ok event) → ¬Escapes raw

/-- `doc.get("bundle_version")`. -/
def bundleVersionOf : Value := (doc.get? "bundle_version").getD .none

/-- The bundle version is absent, or it is a number, and if it is not too new no event escapes. -/
def Handled : Prop :=
  bundleVersionOf doc = .none ∨ ∃ new, isGreater (bundleVersionOf doc) bundleVersion = .ok new ∧
    (new = true ∨ NoneEscapes models doc)

variable {models} {doc}

/-- What the body of the `try` raises is caught exactly when no event escapes. -/
theorem isCaught_parseBody_iff :
    (∀ e, parseBody models doc = .error e → IsCaught e) ↔ NoneEscapes models doc := by
  constructor
  · intro h pre raw post hraws hpre hescapes
    -- the entry raises, and so does the body
    obtain ⟨e, he⟩ : ∃ e, parseEvent models raw = .error e := by
      cases hraw : parseEvent models raw with
      | error e => exact ⟨e, rfl⟩
      | ok event => exact absurd hescapes (of_parseEvent hraw).1
    have hbody : parseBody models doc = .error e :=
      Except.bind_eq_error_iff.mpr (.inr ⟨_, hraws,
        Except.bind_eq_error_iff.mpr (.inl (parseEvents_of_error hpre he))⟩)
    exact (isCaught_of_parseEvent he).mp (h e hbody) hescapes
  · intro h e he
    rcases Except.bind_eq_error_iff.mp he with helements | ⟨raws, hraws, hloop⟩
    · exact isCaught_of_elements helements
    rcases Except.bind_eq_error_iff.mp hloop with hevents | ⟨events, -, hrecording⟩
    · -- the entry that ended the loop
      obtain ⟨pre, raw, post, rfl, hpre, hraw⟩ := parseEvents_eq_error hevents
      exact (isCaught_of_parseEvent hraw).mpr (h pre raw post hraws hpre)
    · exact isCaught_of_parseRecording hrecording

/-- A parsed recording has the events of the document. -/
theorem forall₂_of_parseBody (hmodels : models.KeepsEvents) {r : Recording}
    (h : parseBody models doc = .ok r) :
    ∃ raws, rawEvents doc = .ok raws ∧ List.Forall₂ (ReadAs models) raws r.events := by
  obtain ⟨raws, hraws, hloop⟩ := Except.bind_eq_ok_iff.mp h
  obtain ⟨events, hevents, hrecording⟩ := Except.bind_eq_ok_iff.mp hloop
  refine ⟨raws, hraws, ?_⟩
  rw [events_of_parseRecording hmodels hrecording]
  exact forall₂_of_parseEvents hevents

/-- A document without a version is no bundle. -/
theorem parseBundle_of_none (hversion : bundleVersionOf doc = .none) :
    parseBundle models doc =
      .error (.bundleError "not an InfraReplay bundle: no bundle_version") := by
  unfold parseBundle
  rw [show (doc.get? "bundle_version").getD .none = .none from hversion]
  rfl

/-- The comparison decides: it raises, the version is too new, or the `try` is entered. -/
theorem parseBundle_eq (hversion : bundleVersionOf doc ≠ .none) :
    parseBundle models doc = (isGreater (bundleVersionOf doc) bundleVersion >>= fun new =>
      if new then throw (.bundleError ("bundle_version " ++ versionText (bundleVersionOf doc) ++
        " is newer than " ++ toString bundleVersion))
      else (parseBody models doc).mapError asBundleError) := by
  unfold parseBundle bundleVersionOf
  cases h : (doc.get? "bundle_version").getD .none with
  | none => exact absurd h hversion
  | _ => rfl

/-- **Malformed bundles.** `parse_bundle` returns the events of the document or raises `BundleError`
exactly when the bundle version is absent or a number and, unless that is too new, no event escapes
that the loop gets to. -/
theorem failsOnlyWithBundleError_iff (hmodels : models.KeepsEvents) :
    FailsOnlyWithBundleError models doc ↔ Handled models doc := by
  rw [FailsOnlyWithBundleError, Handled]
  by_cases hversion : bundleVersionOf doc = .none
  · rw [parseBundle_of_none hversion]
    exact ⟨fun _ => .inl hversion, fun _ => ⟨_, rfl⟩⟩
  rw [parseBundle_eq hversion]
  cases hnew : isGreater (bundleVersionOf doc) bundleVersion with
  | error e =>
    -- the comparison stands before the `try`
    obtain ⟨message, rfl⟩ := exists_typeError_of_isGreater hnew
    simp [hversion, bind, Except.bind]
  | ok new =>
    cases new with
    | true => simp [bind, Except.bind, throw, throwThe, MonadExceptOf.throw]
    | false =>
      have hbody : (∀ e, parseBody models doc = .error e → IsCaught e) ↔ NoneEscapes models doc :=
        isCaught_parseBody_iff
      rw [← hbody]
      show (match (parseBody models doc).mapError asBundleError with
        | .ok r => _
        | .error e => _) ↔ _
      cases hparse : parseBody models doc with
      | error e => simp [Except.mapError, IsCaught, hversion]
      | ok r => simpa [Except.mapError, hversion] using forall₂_of_parseBody hmodels hparse

/-- A version that is no number is refused with a `BundleError`. -/
theorem failsOnlyWithBundleError_text : FailsOnlyWithBundleError strictModels
    [("bundle_version", .int 1), ("events", .list [.dict [("schema_version", .str "2")]])] := by
  refine (failsOnlyWithBundleError_iff strictModels_keepsEvents).mpr
    (.inr ⟨false, rfl, .inr fun pre raw post hraws _ => ?_⟩)
  have hone : [Value.dict [("schema_version", .str "2")]] = pre ++ raw :: post :=
    Except.ok.inj hraws
  obtain rfl : raw = .dict [("schema_version", .str "2")] := by
    have hmem : raw ∈ pre ++ raw :: post := by simp
    rwa [← hone, List.mem_singleton] at hmem
  exact nofun

/-- An event `null` raises `AttributeError`. -/
theorem not_failsOnlyWithBundleError_null : ¬∀ (models : Models) (doc : Document),
    models.KeepsEvents → FailsOnlyWithBundleError models doc := by
  intro h
  have hnull := h strictModels
    [("bundle_version", .int 1), ("recording", .dict []), ("events", .list [.none])]
    strictModels_keepsEvents
  obtain ⟨message, hmessage⟩ := hnull
  cases hmessage

end Parse

end InfraReplay
