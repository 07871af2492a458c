import InfraReplay.Recording.Importable

/-!
# Validating a bundle

`POST /api/recordings/validate` answers "would this import?" by parsing the bundle alone. The import
goes on to primary keys, column types, foreign keys, the file of the snapshot and the recording ids
that events carry (`Importable`), and `wouldImport_iff` says that a bundle that parses imports as
announced exactly when it is importable.
-/

namespace InfraReplay

open Python

/-- The answer of the endpoint. -/
inductive Verdict where
  | valid (recordingId : String) (events : ℕ) (schemaVersion : ℤ)
  | invalid (error : String)

/-- `validate_bundle`. Only a `BundleError` is answered. -/
def validateBundle (models : Models) (doc : Dict String Value) : Except Error Verdict :=
  match parseBundle models doc with
  | .ok r => .ok (.valid r.recordingId r.events.length r.schemaVersion)
  | .error (.bundleError message) => .ok (.invalid message)
  | .error e => .error e

/-- A bundle that is called valid with `k` events imports into the store, and the recording that
comes back is completed and has `k` events. -/
def WouldImport (models : Models) (db : Database) (order : RowOrder) (hex recordingHex : String)
    (eventHexes : List String) (doc : Dict String Value) (s : Store) : Prop :=
  ∀ recordingId k version,
    validateBundle models doc = .ok (.valid recordingId k version) →
      ∃ r n s', (importRecording models order hex recordingHex eventHexes doc).runUnder db.refuses
          0 s = (.ok r, n, s') ∧
        r.status = .completed ∧ r.events.length = k

variable {db : Database} {s : Store}

/-- **What validation promises.** A bundle is imported as its validation announces exactly when the
recording it settles to is importable. -/
theorem wouldImport_iff (models : Models) (order : RowOrder) (hex recordingHex : String)
    (eventHexes : List String) (doc : Dict String Value) (hs : db.holds s = true) :
    WouldImport models db order hex recordingHex eventHexes doc s ↔
      ∀ r, parseBundle models doc = .ok r →
        Importable db hex s (settled recordingHex eventHexes s r) := by
  have hread : db.refuses 0 s s = none := Database.refuses_eq_none_iff.mpr hs
  constructor
  · intro h r hparse
    have hvalid : validateBundle models doc =
        .ok (.valid r.recordingId r.events.length r.schemaVersion) := by
      rw [validateBundle, hparse]
    obtain ⟨r', n', s', hrun, -, hcount⟩ := h _ _ _ hvalid
    rw [runUnder_importRecording_eq hparse hread] at hrun
    refine importable_of_runUnder hs (fun hnil => ?_) hrun (hcount.trans (by rw [length_settled]))
    -- an id that is taken is replaced by one that is not empty
    rcases settled_eq_or recordingHex eventHexes s r with ⟨-, hsettled⟩ | ⟨hnew, hsettled⟩
    · rw [hsettled] at hnil
      exact absurd hnil (newId_ne _ _)
    · rw [hsettled] at hnil
      rwa [hnil] at hnew
  · intro h recordingId k version hvalid
    unfold validateBundle at hvalid
    split at hvalid
    next r hparse =>
      cases hvalid
      rw [runUnder_importRecording_eq hparse hread]
      obtain ⟨r', n', s', hrun, hstatus, hcount⟩ := (h r hparse).runUnder_openImported hs order 1
      exact ⟨r', n', s', hrun, hstatus, hcount.trans (by rw [length_settled])⟩
    next => cases hvalid
    next => cases hvalid

/-- A recording with one event of its own. -/
def oneEvent : Recording where
  recordingId := "rec_1"
  events := [.brief .httpRequest "evt_a" "corr_a" 0]

theorem wouldImport_oneEvent :
    WouldImport strictModels .postgres .bySequence "" "" [] (buildBundle "" oneEvent) .empty := by
  refine (wouldImport_iff strictModels .bySequence "" "" [] _ (by decide)).mpr fun r hr => ?_
  rw [parseBundle_buildBundle strictModels_roundTrip "" (by decide)] at hr
  cases hr
  exact ⟨by decide, by decide, by decide, by decide, by decide, by decide, by decide, by decide⟩

/-- A bundle that repeats an event id is called valid and is not imported. -/
theorem not_wouldImport_repeated :
    ¬∀ (models : Models) (db : Database) (order : RowOrder) (hex recordingHex : String)
      (eventHexes : List String) (doc : Dict String Value) (s : Store), db.holds s = true →
      WouldImport models db order hex recordingHex eventHexes doc s := by
  intro h
  have hvalid : validateBundle strictModels (buildBundle "" repeatedEvent) =
      .ok (.valid "rec_1" 2 1) := by
    rw [validateBundle, parseBundle_repeatedEvent]
    rfl
  obtain ⟨r, n, s', hrun, -⟩ := h strictModels .postgres .bySequence "" "" [] _ .empty (by decide)
    _ _ _ hvalid
  rw [runUnder_importRecording_eq parseBundle_repeatedEvent rfl] at hrun
  have hraises : ((openImported .bySequence "" (settled "" [] .empty repeatedEvent)).runUnder
      Database.postgres.refuses 1 .empty).1.isOk = false := by decide
  rw [hrun] at hraises
  cases hraises

end InfraReplay
