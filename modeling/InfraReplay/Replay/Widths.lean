import InfraReplay.Common.Machine
import InfraReplay.Recording.Database
import InfraReplay.Replay.Failure

/-!
# Room for a title

`run_replay` writes `Replay of ` before the title of its source, and `fail_recording` writes the
reason behind the title it finds. Both store the result in a `String(256)` column, and nothing
shortens it. `TitleWrite.step` is one such commit on a database that enforces its widths
(`Database.EnforcesWidths`), and `written_along_iff` says which runs of them write everything down.

The title of a replay of a replay grows with each of them: `TitleWrite.Room` is about the state
each step is taken in.
-/

namespace InfraReplay

open Python

/-! ### Databases that enforce the width of a column -/

namespace Database

/-- A printable ASCII character. -/
def isPrintable (c : Char) : Bool := decide (32 ≤ c.toNat) && decide (c.toNat < 127)

/-- A `String(n)` column takes the texts of at most `n` characters that are all allowed, and the
printable ASCII characters are. -/
structure EnforcesWidths (db : Database) (allowed : Char → Bool) : Prop where
  string : ∀ n s, db.string n s = (decide (s.length ≤ n) && s.toList.all allowed)
  printable : ∀ c, isPrintable c = true → allowed c = true

theorem postgres_enforcesWidths : postgres.EnforcesWidths fun c => decide (c ≠ '\x00') where
  string _ _ := rfl
  printable c hc := by
    refine decide_eq_true ?_
    rintro rfl
    exact absurd hc (by decide)

variable {db : Database} {allowed : Char → Bool}

namespace EnforcesWidths

variable (hdb : db.EnforcesWidths allowed)
include hdb

theorem string_iff {n : ℕ} {s : String} :
    db.string n s = true ↔ s.length ≤ n ∧ s.toList.all allowed = true := by
  rw [hdb.string, Bool.and_eq_true, decide_eq_true_eq]

/-- A text of the program itself is allowed. -/
theorem all_of_printable {s : String} (hs : s.toList.all isPrintable = true) :
    s.toList.all allowed = true :=
  List.all_eq_true.mpr fun c hc => hdb.printable c (List.all_eq_true.mp hs c hc)

/-- Two texts in one column. -/
theorem string_append_iff {n : ℕ} {s t : String} :
    db.string n (s ++ t) = true ↔
      s.length + t.length ≤ n ∧ s.toList.all allowed = true ∧ t.toList.all allowed = true := by
  rw [hdb.string_iff, String.length_append, String.toList_append, List.all_append,
    Bool.and_eq_true]

end EnforcesWidths

/-- Whatever a task does, the steps that are not refused leave rows that fit. -/
theorem holds_runUnder {α : Type} (p : Prog Store Error α) (n : ℕ) {s : Store}
    (hs : db.holds s = true) : db.holds (p.runUnder db.refuses n s).2.2 = true := by
  induction p generalizing n s with
  | ret a => exact hs
  | raise e => exact hs
  | atomic upd next ih =>
    rw [Prog.runUnder]
    cases hrefuses : db.refuses n s (upd s) with
    | none => exact ih _ (n + 1) (refuses_eq_none_iff.mp hrefuses)
    | some e => exact ih _ (n + 1) hs

/-- A change of one recording row fits when the new row does. -/
theorem holds_setRecording_iff {f : RecordingRow → RecordingRow}
    {hf : ∀ row, (f row).recordingId = row.recordingId} {recordingId : String} {s : Store}
    (hs : db.holds s = true) :
    db.holds (s.setRecording recordingId f hf) = true ↔
      ∀ row, s.recordings.find? recordingId = some row → db.takesRecording (f row) = true := by
  obtain ⟨hrecordings, hevents, hrefers⟩ := holds_iff.mp hs
  rw [holds_iff, Store.rows_setRecording]
  constructor
  · rintro ⟨hrows, -, -⟩ row hrow
    obtain ⟨hmem, hid⟩ := Table.find?_eq_some_iff.mp hrow
    exact hrows (f row) (List.mem_map.mpr ⟨row, hmem, if_pos hid⟩)
  · intro hnew
    refine ⟨fun row' hrow' => ?_, hevents, fun row' hrow' => ?_⟩
    · obtain ⟨row, hmem, rfl⟩ := List.mem_map.mp hrow'
      split_ifs with hid
      · exact hnew row (Table.find?_eq_some_iff.mpr ⟨hmem, hid⟩)
      · exact hrecordings row hmem
    · -- no id changes, so what refers to a recording still does
      refine refers_mono (fun id hid => ?_) (hrefers row' hrow')
      obtain ⟨row, hmem, rfl⟩ := List.mem_map.mp hid
      rw [Store.rows_setRecording, List.map_map]
      refine List.mem_map.mpr ⟨row, hmem, ?_⟩
      rw [Function.comp_apply]
      split_ifs
      · exact hf row
      · rfl

end Database

/-! ### The commits that write a title -/

/-- `uuid4().hex[:12]`. -/
structure IdHex where
  text : String
  length_eq : text.length = 12
  digits : ∀ c ∈ text.toList, c ∈ "0123456789abcdef".toList

/-- `run_replay`, up to the point where the replay recording is open. -/
def openReplay (order : RowOrder) (options : ReplayOptions) (recordingId hex : String) :
    Prog Store Error Recording := do
  fromResult (ensureSafe options.target options.safety)
  match ← getRecording order recordingId with
  | none => throw (.replayError ("recording " ++ quoted recordingId ++ " not found"))
  | some source =>
    let _ ← startRecording (replayRow source recordingId options.target (newId "rpl" hex)) hex
    return source

/-- A replay first opens its recording and does the rest with the source it read. -/
theorem runReplay_eq_bind (cfg : Config) (order : RowOrder) (env : ReplayEnv)
    (options : ReplayOptions) (recordingId : String) :
    runReplay cfg order env options recordingId =
      openReplay order options recordingId env.hex >>= fun source =>
        replayOpened cfg order env options recordingId source := by
  unfold runReplay openReplay
  rw [bind_assoc]
  refine bind_congr fun _ => ?_
  rw [bind_assoc]
  refine bind_congr fun found => ?_
  cases found with
  | none => rfl
  | some source =>
    simp only [replaySource_eq, bind_assoc, pure_bind]

/-- A commit that writes a title. -/
inductive TitleWrite where
  | replay (recordingId : String) (options : ReplayOptions) (hex : IdHex)
  | fail (recordingId reason : String)

namespace TitleWrite

/-- The code that commits it. -/
def code (order : RowOrder) : TitleWrite → Prog Store Error Unit
  | replay recordingId options hex => (openReplay order options recordingId hex.text).discard
  | fail recordingId reason => failRecording recordingId reason

/-- What the database is left with. A commit that is refused changes nothing. -/
def step (db : Database) (order : RowOrder) (s : Store) (w : TitleWrite) : Option Store :=
  some ((w.code order).runUnder db.refuses 0 s).2.2

/-- The row that the replay of a row opens. -/
def opened (row : RecordingRow) (options : ReplayOptions) (hex : IdHex) : RecordingRow :=
  (replayRow (rowToRecording row []) row.recordingId options.target
    (newId "rpl" hex.text)).row hex.text

/-- The row it writes fits, and it is written: a recording that is there is FAILED afterwards, and
a replay with an accepted target has its recording, unless the id that was made up is taken. -/
def Written (db : Database) (order : RowOrder) (s : Store) : TitleWrite → Prop
  | w@(replay recordingId options hex) =>
    ensureSafe options.target options.safety = .ok () →
      ∀ row, s.recordings.find? recordingId = some row →
        db.takesRecording (opened row options hex) = true ∧
          (s.recordings.find? (newId "rpl" hex.text) = none →
            ∃ n s', (w.code order).runUnder db.refuses 0 s = (.ok (), n, s') ∧
              s'.recordings.find? (newId "rpl" hex.text) = some (opened row options hex))
  | w@(fail recordingId reason) =>
    ∀ row, s.recordings.find? recordingId = some row →
      db.takesRecording (row.failed reason) = true ∧
        ∃ n s', (w.code order).runUnder db.refuses 0 s = (.ok (), n, s') ∧
          s'.recordings.find? recordingId = some (row.failed reason)

/-- There is room for what it writes: the title with what is added to it, and the target, keep
within their columns, and what is added is allowed there. -/
def Room (allowed : Char → Bool) (s : Store) : TitleWrite → Prop
  | replay recordingId options _ =>
    ensureSafe options.target options.safety = .ok () →
      ∀ row, s.recordings.find? recordingId = some row →
        row.title.length + 10 ≤ 256 ∧ options.target.length ≤ 512 ∧
          options.target.toList.all allowed = true
  | fail recordingId reason =>
    ∀ row, s.recordings.find? recordingId = some row →
      row.title.length + reason.length + 11 ≤ 256 ∧ reason.toList.all allowed = true

variable {db : Database} {allowed : Char → Bool} {order : RowOrder} {s : Store}

/-! ### The row of a replay -/

/-- An id that `new_id` makes up fits. -/
theorem string_newId (hdb : db.EnforcesWidths allowed) (hex : IdHex) :
    db.string 64 (newId "rpl" hex.text) = true := by
  have hdigits : "0123456789abcdef".toList.all Database.isPrintable = true := by decide
  have hstem : db.string 64 ("rpl" ++ "_") = true :=
    hdb.string_iff.mpr ⟨by decide, hdb.all_of_printable (by decide)⟩
  refine hdb.string_append_iff.mpr ⟨?_, (hdb.string_iff.mp hstem).2, ?_⟩
  · rw [hex.length_eq]
    decide
  · exact hdb.all_of_printable
      (List.all_eq_true.mpr fun c hc => List.all_eq_true.mp hdigits c (hex.digits c hc))

/-- The title of a replay. Where the source has none, its id stands in the title, which is short. -/
theorem string_replayTitle_iff (hdb : db.EnforcesWidths allowed) {row : RecordingRow}
    (hid : db.string 64 row.recordingId = true) (htitle : db.string 256 row.title = true) :
    db.string 256 ("Replay of " ++ if row.title = "" then row.recordingId else row.title) = true ↔
      row.title.length + 10 ≤ 256 := by
  have hstem : "Replay of ".toList.all allowed = true := hdb.all_of_printable (by decide)
  obtain ⟨hidLength, hidAllowed⟩ := hdb.string_iff.mp hid
  have hlength : "Replay of ".length = 10 := by decide
  rw [hdb.string_append_iff, hlength, add_comm]
  split_ifs with hempty
  · rw [hempty]
    exact iff_of_true ⟨by omega, hstem, hidAllowed⟩ (by decide)
  · exact ⟨fun h => h.1, fun h => ⟨h, hstem, (hdb.string_iff.mp htitle).2⟩⟩

/-- The replay of a row that fits opens a row that fits, exactly when the longer title and the
target do. -/
theorem takesRecording_opened_iff (hdb : db.EnforcesWidths allowed) {row : RecordingRow}
    (hrow : db.takesRecording row = true) (options : ReplayOptions) (hex : IdHex) :
    db.takesRecording (opened row options hex) = true ↔
      row.title.length + 10 ≤ 256 ∧ options.target.length ≤ 512 ∧
        options.target.toList.all allowed = true := by
  simp only [Database.takesRecording, Bool.and_eq_true] at hrow
  obtain ⟨⟨⟨⟨⟨hid, hproject⟩, htitle⟩, -⟩, -⟩, -⟩ := hrow
  have hplugin : db.string 64 "" = true := hdb.string_iff.mpr ⟨by decide, rfl⟩
  have hopened : (opened row options hex).recordingId = newId "rpl" hex.text :=
    chosenId_replayRow (rowToRecording row []) row.recordingId options.target hex.text
  -- the plugin is empty, and the source is named by the id of the row
  rw [Database.takesRecording, hopened]
  simp only [Bool.and_eq_true]
  constructor
  · rintro ⟨⟨⟨⟨⟨-, -⟩, hnew⟩, -⟩, -⟩, htarget⟩
    exact ⟨(string_replayTitle_iff hdb hid htitle).mp hnew, hdb.string_iff.mp htarget⟩
  · rintro ⟨hnew, htarget⟩
    exact ⟨⟨⟨⟨⟨string_newId hdb hex, hproject⟩, (string_replayTitle_iff hdb hid htitle).mpr hnew⟩,
      hplugin⟩, hid⟩, hdb.string_iff.mpr htarget⟩

/-! ### The row of a failure -/

/-- A row that fits still does with the reason behind its title, exactly when there is room. -/
theorem takesRecording_failed_iff (hdb : db.EnforcesWidths allowed) {row : RecordingRow}
    (hrow : db.takesRecording row = true) (reason : String) :
    db.takesRecording (row.failed reason) = true ↔
      row.title.length + reason.length + 11 ≤ 256 ∧ reason.toList.all allowed = true := by
  simp only [Database.takesRecording, Bool.and_eq_true] at hrow
  obtain ⟨⟨⟨⟨⟨hid, hproject⟩, htitle⟩, hplugin⟩, hsource⟩, htarget⟩ := hrow
  have hopening : " (failed: ".toList.all allowed = true := hdb.all_of_printable (by decide)
  have hclosing : ")".toList.all allowed = true := hdb.all_of_printable (by decide)
  have hfailed : db.string 256 (row.failed reason).title = true ↔
      row.title.length + reason.length + 11 ≤ 256 ∧ reason.toList.all allowed = true := by
    have hopeningLength : " (failed: ".length = 10 := by decide
    have hclosingLength : ")".length = 1 := by decide
    rw [RecordingRow.failed, hdb.string_append_iff]
    simp only [String.length_append, String.toList_append, List.all_append, Bool.and_eq_true,
      hopening, hclosing, (hdb.string_iff.mp htitle).2, hopeningLength, hclosingLength, true_and,
      and_true]
    exact and_congr_left' (by omega)
  -- the other columns are as they were
  rw [← hfailed, Database.takesRecording]
  simp only [Bool.and_eq_true]
  constructor
  · rintro ⟨⟨⟨⟨⟨-, -⟩, hnew⟩, -⟩, -⟩, -⟩
    exact hnew
  · exact fun hnew => ⟨⟨⟨⟨⟨hid, hproject⟩, hnew⟩, hplugin⟩, hsource⟩, htarget⟩

/-! ### One commit, and a run of them -/

/-- A replay whose target is accepted reads its source and goes on to open the recording. -/
theorem runUnder_openReplay {options : ReplayOptions} {recordingId hex : String}
    {row : RecordingRow} (hs : db.holds s = true)
    (hsafe : ensureSafe options.target options.safety = .ok ())
    (hrow : s.recordings.find? recordingId = some row) (n : ℕ) :
    (openReplay order options recordingId hex).runUnder db.refuses n s =
      (do
        let _ ← startRecording
          (replayRow (rowToRecording row []) recordingId options.target (newId "rpl" hex)) hex
        return rowToRecording row (s.eventsFor order recordingId) :
          Prog Store Error Recording).runUnder db.refuses (n + 2) s := by
  -- a read leaves a store that the database holds already
  have hread : ∀ n, db.refuses n s s = none := fun n => Database.refuses_eq_none_iff.mpr hs
  unfold openReplay getRecording
  rw [hsafe]
  show ((_ >>= _) >>= _ : Prog Store Error Recording).runUnder db.refuses n s = _
  rw [bind_assoc, Prog.runUnder_bind_ok (Prog.runUnder_read (hread n) _), hrow]
  simp only
  rw [bind_assoc, Prog.runUnder_bind_ok (Prog.runUnder_read (hread (n + 1)) _)]
  rfl

/-- A replay is written down exactly when there is room for it. -/
theorem written_replay_iff (hdb : db.EnforcesWidths allowed) (hs : db.holds s = true)
    (recordingId : String) (options : ReplayOptions) (hex : IdHex) :
    (replay recordingId options hex).Written db order s ↔
      (replay recordingId options hex).Room allowed s := by
  refine imp_congr_right fun hsafe => forall_congr' fun row => imp_congr_right fun hrow => ?_
  obtain ⟨hmem, hid⟩ := Table.find?_eq_some_iff.mp hrow
  have hfits := (Database.holds_iff.mp hs).1 row hmem
  rw [← takesRecording_opened_iff hdb hfits options hex, and_iff_left_iff_imp]
  intro htakes hfree
  let new := replayRow (rowToRecording row []) recordingId options.target (newId "rpl" hex.text)
  have hrowNew : new.row hex.text = opened row options hex := by
    unfold opened
    rw [show row.recordingId = recordingId from hid]
  have hnewId : (opened row options hex).recordingId = newId "rpl" hex.text :=
    chosenId_replayRow (rowToRecording row []) row.recordingId options.target hex.text
  -- the new id is not taken, and what the row leaves fits
  obtain ⟨s', hadd⟩ : ∃ s', s.addRecording (opened row options hex) = .ok ((), s') :=
    Store.exists_addRecording (by rw [hnewId]; exact Table.find?_eq_none_iff.mp hfree)
  have hcommit : db.refuses 2 s s' = none :=
    Database.refuses_eq_none_iff.mpr ((Database.holds_addRecording_iff hs hadd).mpr htakes)
  refine ⟨3, s', ?_, ?_⟩
  · rw [code, Prog.discard, Prog.runUnder_bind, runUnder_openReplay hs hsafe hrow, startRecording]
    rw [bind_assoc, Prog.runUnder_bind_ok (Prog.runUnder_tx_ok (hrowNew ▸ hadd) hcommit)]
    rfl
  · rw [← hnewId]
    exact Store.find?_addRecording hadd

/-- A failure is written down exactly when there is room for the reason. -/
theorem written_fail_iff (hdb : db.EnforcesWidths allowed) (hs : db.holds s = true)
    (recordingId reason : String) :
    (fail recordingId reason).Written db order s ↔ (fail recordingId reason).Room allowed s := by
  refine forall_congr' fun row => imp_congr_right fun hrow => ?_
  have hfits := (Database.holds_iff.mp hs).1 row (Table.find?_eq_some_iff.mp hrow).1
  rw [← takesRecording_failed_iff hdb hfits reason, and_iff_left_iff_imp]
  intro htakes
  let s' := s.setRecording recordingId (RecordingRow.failed reason) fun _ => rfl
  -- a row that fits is all that the commit checks anew
  have hcommit : db.refuses 0 s s' = none := by
    refine Database.refuses_eq_none_iff.mpr ((Database.holds_setRecording_iff hs).mpr ?_)
    intro row' hrow'
    rwa [← Option.some.inj (hrow.symm.trans hrow')]
  have hrun : (failRecording recordingId reason).runUnder db.refuses 0 s = (.ok (), 1, s') := by
    unfold failRecording
    exact Prog.runUnder_tx_ok rfl hcommit
  have hfind : s'.recordings.find? recordingId = (s.recordings.find? recordingId).map fun row' =>
      if row'.recordingId = recordingId then row'.failed reason else row' :=
    Store.find?_setRecording (RecordingRow.failed reason) (fun _ => rfl) recordingId recordingId s
  refine ⟨1, s', hrun, ?_⟩
  rw [hfind, hrow, Option.map_some,
    if_pos (Table.find?_eq_some_iff.mp hrow).2]

/-- One commit is written down exactly when there is room for it. -/
theorem written_iff_room (hdb : db.EnforcesWidths allowed) (hs : db.holds s = true)
    (w : TitleWrite) : w.Written db order s ↔ w.Room allowed s := by
  cases w with
  | replay recordingId options hex => exact written_replay_iff hdb hs recordingId options hex
  | fail recordingId reason => exact written_fail_iff hdb hs recordingId reason

theorem holds_step {w : TitleWrite} {s' : Store} (hs : db.holds s = true)
    (h : step db order s w = some s') : db.holds s' = true :=
  Option.some.inj h ▸ Database.holds_runUnder (w.code order) 0 hs

/-- A run of failures and replays, and of replays of these, is written down exactly when each of
them finds room. -/
theorem written_along_iff (hdb : db.EnforcesWidths allowed) (order : RowOrder)
    (hs : db.holds s = true) (writes : List TitleWrite) :
    Machine.Along (step db order) (Written db order) s writes ↔
      Machine.Along (step db order) (Room allowed) s writes :=
  Machine.along_congr (fun _ _ _ hs h => holds_step hs h) (fun _ w hs => written_iff_room hdb hs w)
    hs

instance (allowed : Char → Bool) (s : Store) : (w : TitleWrite) → Decidable (w.Room allowed s)
  | replay recordingId options _ =>
    inferInstanceAs (Decidable (ensureSafe options.target options.safety = .ok () →
      ∀ row ∈ s.recordings.find? recordingId, row.title.length + 10 ≤ 256 ∧
        options.target.length ≤ 512 ∧ options.target.toList.all allowed = true))
  | fail recordingId reason =>
    inferInstanceAs (Decidable (∀ row ∈ s.recordings.find? recordingId,
      row.title.length + reason.length + 11 ≤ 256 ∧ reason.toList.all allowed = true))

/-- A recording under a title. -/
def titled (title : String) : RecordingRow where
  recordingId := "rec_1"
  kind := .capture
  status := .completed
  title := title

/-- The twelve digits of an id. -/
def hexOf (c : Char) (hc : c ∈ "0123456789abcdef".toList) : IdHex where
  text := String.ofList (List.replicate 12 c)
  length_eq := by simp
  digits d hd := by
    rw [String.toList_ofList] at hd
    rwa [(List.mem_replicate.mp hd).2]

/-- A replay of a recording with a short title, a replay of that replay, and the failure of the
second. -/
theorem written_along_iff_twice :
    Database.postgres.holds (.withRecording (titled "checkout")) = true ∧
      Machine.Along (step .postgres .bySequence) (Written .postgres .bySequence)
        (.withRecording (titled "checkout"))
        [.replay "rec_1" { target := "mock" } (hexOf 'a' (by decide)),
          .replay "rpl_aaaaaaaaaaaa" { target := "ftp://shop" } (hexOf 'b' (by decide)),
          .fail "rpl_bbbbbbbbbbbb" "unsupported replay target 'ftp://shop'"] := by
  have hs : Database.postgres.holds (.withRecording (titled "checkout")) = true := by decide
  exact ⟨hs, (written_along_iff Database.postgres_enforcesWidths .bySequence hs _).mpr
    (by decide +kernel)⟩

/-- A replay to a target that is not supported is opened under a title of 250 characters, and the
failure does not fit behind it. -/
theorem not_written_along_of_length {title : String} (hlength : title.length = 240)
    (hs : Database.postgres.holds (.withRecording (titled title)) = true) :
    ¬Machine.Along (step .postgres .bySequence) (Written .postgres .bySequence)
      (.withRecording (titled title))
      [.replay "rec_1" { target := "ftp://shop" } (hexOf 'a' (by decide)),
        .fail "rpl_aaaaaaaaaaaa" "unsupported replay target 'ftp://shop'"] := by
  rintro ⟨hreplay, hfail, -⟩
  have hrow : (Store.withRecording (titled title)).recordings.find? "rec_1" =
      some (titled title) := Table.find?_eq_some_iff.mpr ⟨List.mem_singleton_self _, rfl⟩
  obtain ⟨-, hopened⟩ := hreplay (by decide +kernel) _ hrow
  have hfree : newId "rpl" (hexOf 'a' (by decide)).text ∉ ["rec_1"] := by decide
  -- the replay is stored, and the failure finds its row
  obtain ⟨n, s', hrun, hfind⟩ := hopened (Table.find?_eq_none_iff.mpr hfree)
  have hs' := Database.holds_runUnder
    (code .bySequence (.replay "rec_1" { target := "ftp://shop" } (hexOf 'a' (by decide)))) 0 hs
  rw [hrun] at hs' hfail
  have hroom := (written_iff_room Database.postgres_enforcesWidths hs' _).mp hfail _ hfind
  have hne : title ≠ "" := by
    rintro rfl
    cases hlength
  have htitle : (opened (titled title) { target := "ftp://shop" } (hexOf 'a' (by decide))).title =
      "Replay of " ++ title := congrArg ("Replay of " ++ ·) (if_neg hne)
  rw [htitle, String.length_append, hlength] at hroom
  exact absurd hroom.1 (by decide)

/-- The title of a recording may have 240 characters. -/
theorem not_written_along_longTitle :
    let s : Store := .withRecording (titled (String.ofList (List.replicate 240 'a')))
    Database.postgres.holds s = true ∧
      ¬Machine.Along (step .postgres .bySequence) (Written .postgres .bySequence) s
        [.replay "rec_1" { target := "ftp://shop" } (hexOf 'a' (by decide)),
          .fail "rpl_aaaaaaaaaaaa" "unsupported replay target 'ftp://shop'"] := by
  have hs : Database.postgres.holds
      (.withRecording (titled (String.ofList (List.replicate 240 'a')))) = true := by
    decide +kernel
  exact ⟨hs, not_written_along_of_length (String.length_ofList.trans List.length_replicate) hs⟩

end TitleWrite

end InfraReplay
