import InfraReplay.Api.Routes

/-!
# What a request leaves behind

A request that is answered 400 or 404 has been refused, and a request that is answered 500 has
crashed. `Custody` is what a request has done so far: the recording it has opened or taken out of
`_SESSIONS`, whether it still answers for it, and whether it has changed anything else. Every step
of every request is a move of this custody (`Custody.Moves`), which is shown call by call, and
`Crew.InPhases.run` makes results about any number of requests of it.

* `atLarge_of_run`: a recording that is RECORDING without a live session belongs to a request that
  is under way or has crashed, one to each.
* `onlyRow_of_refused`: a request that is refused has changed nothing but the row of at most one
  recording, which it has opened itself.
-/

namespace InfraReplay

open Python

namespace Process

/-- The recordings that are open without a session that could be stopped. -/
def atLarge (process : Process) : Set String :=
  {id | process.store.Open id ∧ id ∉ process.sessions}

/-- All that may have changed is the row of one recording. -/
structure OnlyRow (recordingId : Option String) (process process' : Process) : Prop where
  sessions : process'.sessions = process.sessions
  commits : process'.commits = process.commits
  events : process'.store.events = process.store.events
  comparisons : process'.store.comparisons = process.store.comparisons
  blobs : process'.store.blobs = process.store.blobs
  others : ∀ id, recordingId ≠ some id →
    process'.store.recordings.find? id = process.store.recordings.find? id

/-- A process differs from itself in no row. -/
theorem OnlyRow.refl (recordingId : Option String) (process : Process) :
    OnlyRow recordingId process process := ⟨rfl, rfl, rfl, rfl, rfl, fun _ _ => rfl⟩

/-- What a request has done so far. -/
structure Custody where
  /-- The recording that it has opened or taken. -/
  recordingId : Option String := none
  /-- It has to end that recording. -/
  answers : Bool := false
  /-- It has changed more than the row of that recording. -/
  wrote : Bool := false
  deriving DecidableEq

namespace Custody

/-- The recording that the request answers for. -/
def AnswersFor (q : Custody) (id : String) : Prop := q.answers = true ∧ q.recordingId = some id

/-- A request that answers for nothing answers for no recording. -/
theorem not_answersFor {q : Custody} (h : q.answers = false) (id : String) : ¬q.AnswersFor id :=
  fun hq => absurd (h.symm.trans hq.1) Bool.false_ne_true

/-- Nothing is left to do, and nothing has been changed but a row. -/
def Settled (q : Custody) : Prop := q.answers = false ∧ q.wrote = false

/-- What a request may do in one step. -/
structure Moves (q : Custody) (process process' : Process) (q' : Custody) : Prop where
  /-- What is at large then is the request's to end, or it was at large and was not. -/
  atLarge : ∀ id ∈ process'.atLarge,
    q'.AnswersFor id ∨ id ∈ process.atLarge ∧ ¬q.AnswersFor id
  /-- No row goes. -/
  kept : ∀ id, (process.store.recordings.find? id).isSome →
    (process'.store.recordings.find? id).isSome
  /-- As long as the request has changed nothing else, it keeps to one recording, which is new. -/
  wrote : q'.wrote = false → q.wrote = false ∧ OnlyRow q'.recordingId process process' ∧
    (q.recordingId = q'.recordingId ∨ q.recordingId = none ∧
      ∀ id, q'.recordingId = some id → process.store.recordings.find? id = none)

/-- Standing still is a move. -/
theorem Moves.refl (q : Custody) (process : Process) : q.Moves process process q where
  atLarge id hid := by
    by_cases h : q.AnswersFor id
    · exact .inl h
    · exact .inr ⟨hid, h⟩
  kept _ h := h
  wrote h := ⟨h, .refl _ _, .inl rfl⟩

end Custody

/-- The moves of requests, while there is a recording under the empty id or there is none. -/
def custody (b : Bool) : Phases Process Error Custody where
  moves := Custody.Moves
  stays := Custody.Moves.refl
  inv process := (process.store.recordings.find? "").isSome = b
  outside e := e.isApi = false

/-- A request that is refused with an exception is settled. -/
def Refuses (caught : Error → Bool) (e : Error) (q : Custody) : Prop :=
  caught e = true → q.Settled

/-! ### The moves -/

section Moves

variable {process process' : Process} {q : Custody} {recordingId : String}

/-- A step that leaves recordings and sessions alone, and is noted as a change. -/
theorem moves_writing (hrecordings : process'.store.recordings = process.store.recordings)
    (hsessions : process'.sessions = process.sessions) :
    q.Moves process process' { q with wrote := true } where
  atLarge id hid := by
    have hbefore : id ∈ process.atLarge := by
      obtain ⟨⟨row, hrow, hstatus⟩, hlive⟩ := hid
      exact ⟨⟨row, hrecordings ▸ hrow, hstatus⟩, hsessions ▸ hlive⟩
    by_cases h : q.AnswersFor id
    · exact .inl h
    · exact .inr ⟨hbefore, h⟩
  kept id h := by rwa [hrecordings]
  wrote h := by cases h

/-- Who opens a recording answers for it. -/
theorem moves_opening {row : RecordingRow} {u : Unit} {s' : Store} (hanswers : q.answers = false)
    (hnew : q.wrote = true ∨ q.recordingId = none)
    (h : process.store.addRecording row = .ok (u, s')) :
    q.Moves process { process with store := s' }
      { recordingId := some row.recordingId, answers := true, wrote := q.wrote } where
  atLarge id hid := by
    by_cases heq : id = row.recordingId
    · -- the row this request has just opened is the one it answers for
      exact .inl ⟨rfl, by rw [heq]⟩
    · refine .inr ⟨?_, Custody.not_answersFor hanswers id⟩
      obtain ⟨⟨row', hrow', hstatus⟩, hlive⟩ := hid
      rw [Store.find?_addRecording_of_ne h heq] at hrow'
      exact ⟨⟨row', hrow', hstatus⟩, hlive⟩
  kept id hid := by
    by_cases heq : id = row.recordingId
    · rw [heq, Store.find?_addRecording h]
      rfl
    · rwa [Store.find?_addRecording_of_ne h heq]
  wrote hwrote := by
    have hnone : q.recordingId = none := by
      rcases hnew with hnew | hnew
      · rw [hwrote] at hnew
        cases hnew
      · exact hnew
    obtain ⟨-, hevents, hcomparisons, hblobs⟩ := Store.addRecording_eq_ok h
    refine ⟨hwrote, ⟨rfl, rfl, hevents, hcomparisons, hblobs, fun id hid => ?_⟩,
      .inr ⟨hnone, fun id hid => ?_⟩⟩
    · exact Store.find?_addRecording_of_ne h fun heq => hid (by rw [heq])
    · obtain rfl := Option.some.inj hid
      exact Table.find?_eq_none_iff.mpr (Store.not_mem_of_addRecording h)

/-- Who ends its recording does not answer for it any more: the row gets another status, and no
other row changes. -/
theorem moves_ending {wrote : Bool} {f : RecordingRow → RecordingRow}
    (hq : q.recordingId = some recordingId) (hsessions : process'.sessions = process.sessions)
    (hfind : ∀ id, process'.store.recordings.find? id =
      (process.store.recordings.find? id).map fun row =>
        if row.recordingId = recordingId then f row else row)
    (hended : ∀ row, (f row).status ≠ .recording)
    (hwrote : wrote = false → q.wrote = false ∧
      process'.commits = process.commits ∧ process'.store.events = process.store.events ∧
      process'.store.comparisons = process.store.comparisons ∧
      process'.store.blobs = process.store.blobs) :
    q.Moves process process' { q with answers := false, wrote := wrote } := by
  have hothers : ∀ id, id ≠ recordingId →
      process'.store.recordings.find? id = process.store.recordings.find? id := by
    intro id hne
    rw [hfind]
    cases hrow : process.store.recordings.find? id with
    | none => rfl
    | some row =>
      have hid : row.recordingId = id := (Table.find?_eq_some_iff.mp hrow).2
      rw [Option.map_some, if_neg (hid.trans_ne hne)]
  refine ⟨fun id hid => ?_, fun id hid => ?_, fun h => ?_⟩
  · obtain ⟨⟨row', hrow', hstatus⟩, hlive⟩ := hid
    -- what is still at large is another recording
    have hne : id ≠ recordingId := by
      rintro rfl
      rw [hfind, Option.map_eq_some_iff] at hrow'
      obtain ⟨row, hrow, rfl⟩ := hrow'
      rw [if_pos (Table.find?_eq_some_iff.mp hrow).2] at hstatus
      exact hended row hstatus
    refine .inr ⟨⟨⟨row', hothers id hne ▸ hrow', hstatus⟩, hsessions ▸ hlive⟩, fun hanswers => ?_⟩
    exact hne (Option.some.inj (hanswers.2.symm.trans hq))
  · rw [hfind, Option.isSome_map]
    exact hid
  · obtain ⟨hbefore, hcommits, hevents, hcomparisons, hblobs⟩ := hwrote h
    refine ⟨hbefore, ⟨hsessions, hcommits, hevents, hcomparisons, hblobs, fun id hid => ?_⟩,
      .inl rfl⟩
    exact hothers id fun heq => hid (by rw [hq, heq])

/-- The commit of a finish ends its recording. -/
theorem moves_completing (hq : q.recordingId = some recordingId) (events : List Event)
    (locator : List String) :
    q.Moves process
      { process with
        store := process.store.complete recordingId events locator
        commits := process.commits ++ [recordingId] }
      { q with answers := false, wrote := true } :=
  moves_ending hq rfl (fun id => Store.find?_complete recordingId id events locator process.store)
    (fun row h => by cases h) fun h => by cases h

/-- A failure ends its recording, and changes nothing else. -/
theorem moves_failing (hq : q.recordingId = some recordingId) (reason : String) :
    q.Moves process
      { process with
        store := process.store.setRecording recordingId (RecordingRow.failed reason)
          (RecordingRow.recordingId_failed reason) }
      { q with answers := false } :=
  moves_ending hq rfl
    (fun id => Store.find?_setRecording (RecordingRow.failed reason)
      (RecordingRow.recordingId_failed reason) recordingId id process.store)
    (fun row h => by cases h) fun hwrote => ⟨hwrote, rfl, rfl, rfl, rfl⟩

/-- Whoever registers a session does not answer for its recording any more. -/
theorem moves_registering (hq : q.recordingId = some recordingId)
    (hstore : process'.store = process.store)
    (hsessions : process'.sessions =
      process.sessions.filter (· ≠ recordingId) ++ [recordingId]) :
    q.Moves process process' { q with answers := false, wrote := true } where
  atLarge id hid := by
    obtain ⟨hopen, hlive⟩ := hid
    rw [hstore] at hopen
    rw [hsessions, List.mem_append, List.mem_filter, List.mem_singleton, not_or] at hlive
    obtain ⟨hfiltered, hne⟩ := hlive
    refine .inr ⟨⟨hopen, fun hmem => hfiltered ⟨hmem, decide_eq_true hne⟩⟩, fun hanswers => hne ?_⟩
    exact Option.some.inj (hanswers.2.symm.trans hq)
  kept id h := by rwa [hstore]
  wrote h := by cases h

/-- Whoever takes a session out answers for its recording. -/
theorem moves_popping (hanswers : q.answers = false) (hstore : process'.store = process.store)
    (hsessions : process'.sessions = process.sessions.filter (· ≠ recordingId)) :
    q.Moves process process'
      { recordingId := some recordingId, answers := true, wrote := true } where
  atLarge id hid := by
    obtain ⟨hopen, hlive⟩ := hid
    rw [hstore] at hopen
    by_cases heq : id = recordingId
    · exact .inl ⟨rfl, by rw [heq]⟩
    · refine .inr ⟨⟨hopen, fun hmem => hlive ?_⟩, Custody.not_answersFor hanswers id⟩
      rw [hsessions]
      exact List.mem_filter.mpr ⟨hmem, decide_eq_true heq⟩
  kept id h := by rwa [hstore]
  wrote h := by cases h

end Moves

/-! ### The calls, step by step -/

section Steps

variable {b : Bool} {caught : Error → Bool} {q : Custody} {α β : Type} {recordingId : String}
  {E : Error → Custody → Prop}

/-- What fails from outside is no exception that a route translates. -/
theorem refuses_of_outside (hcaught : ∀ e, caught e = true → e.isApi = true) (e : Error)
    (he : e.isApi = false) : Refuses caught e q := fun h => by
  rw [hcaught e h] at he
  cases he

/-- What `put_blob` raises is no exception of the API. -/
theorem isApi_of_putBlob {key : String} {e : Error}
    (h : e = .unsafeKey key ∨ BlobRoot.FileError e) : e.isApi = false := by
  rcases h with rfl | ⟨e', rfl⟩ | ⟨message, rfl⟩ <;> rfl

/-- A transaction on the store. -/
theorem phased_onStore_tx {f : Store → Except Error (α × Store)} {P : α → Custody → Prop}
    (hE : ∀ e, e.isApi = false → E e q)
    (hcommit : ∀ process a s', (process.store.recordings.find? "").isSome = b →
      f process.store = .ok (a, s') → (s'.recordings.find? "").isSome = b ∧
        ∃ q', q.Moves process { process with store := s' } q' ∧ P a q')
    (hraised : ∀ s e, f s = .error e → e.isApi = false) :
    (onStore (Prog.tx f)).Phased (custody b) P E q :=
  Prog.Phased.zoom_tx (fun _ => rfl) hcommit (fun s e he => hE e (hraised s e he)) hE

/-- A call on the store, which may change it and raise all the same. -/
theorem phased_onStore_call {f : Store → Except Error α × Store} {P : α → Custody → Prop}
    (hE : ∀ e, e.isApi = false → E e q)
    (hreturned : ∀ process a s', (process.store.recordings.find? "").isSome = b →
      f process.store = (.ok a, s') → (s'.recordings.find? "").isSome = b ∧
        ∃ q', q.Moves process { process with store := s' } q' ∧ P a q')
    (hraised : ∀ process e s', (process.store.recordings.find? "").isSome = b →
      f process.store = (.error e, s') → (s'.recordings.find? "").isSome = b ∧
        ∃ q', q.Moves process { process with store := s' } q' ∧ E e q') :
    (onStore (Prog.call f)).Phased (custody b) P E q := by
  rw [Prog.call, onStore_bind]
  -- the transaction hands over what the call ends with, which is returned or raised after it
  refine (phased_onStore_tx (P := fun outcome q' =>
      (∀ a, outcome = .ok a → P a q') ∧ ∀ e, outcome = .error e → E e q') hE
    (fun process outcome s' hinv h => ?_) fun s e h => by cases h).bind fun outcome q' h => ?_
  · have heq : f process.store = (outcome, s') := Except.ok.inj h
    cases outcome with
    | ok a =>
      obtain ⟨hinv', q', hmoves, hP⟩ := hreturned process a s' hinv heq
      refine ⟨hinv', q', hmoves, fun a' ha' => ?_, fun e he => ?_⟩
      · cases ha'
        exact hP
      · cases he
    | error e =>
      obtain ⟨hinv', q', hmoves, hE'⟩ := hraised process e s' hinv heq
      refine ⟨hinv', q', hmoves, fun a ha => ?_, fun e' he' => ?_⟩
      · cases ha
      · cases he'
        exact hE'
  · cases outcome with
    | ok a => exact h.1 a rfl
    | error e => exact h.2 e rfl

/-- Reading the store leaves a request where it is. -/
theorem phased_read (hE : ∀ e, e.isApi = false → E e q) (f : Store → α) :
    (onStore (Prog.read f)).Phased (custody b) (fun _ q' => q' = q) E q := by
  refine phased_onStore_tx hE (fun process a s' hinv h => ?_) fun s e h => ?_
  · cases h
    exact ⟨hinv, q, .refl q process, rfl⟩
  · cases h

/-- What comes after a query. -/
theorem phased_read_bind (hE : ∀ e, e.isApi = false → E e q) {f : Store → α}
    {g : α → Prog Process Error β} {P : β → Custody → Prop}
    (hg : ∀ a, (g a).Phased (custody b) P E q) :
    (onStore (Prog.read f) >>= g).Phased (custody b) P E q := by
  refine (phased_read hE f).bind fun a q' hq' => ?_
  subst hq'
  exact hg a

/-- From the insert of the row on, the request answers for the recording. -/
theorem phased_startRecording (hE : ∀ e, e.isApi = false → E e q) (hanswers : q.answers = false)
    (hnew : q.wrote = true ∨ q.recordingId = none) (new : NewRecording) (hex : String) :
    (onStore (startRecording new hex)).Phased (custody b)
      (fun id q' => id = new.chosenId hex ∧
        q' = { recordingId := some id, answers := true, wrote := q.wrote }) E q := by
  unfold startRecording
  rw [onStore_bind]
  refine (phased_onStore_tx (P := fun _ q' =>
      q' = { recordingId := some (new.chosenId hex), answers := true, wrote := q.wrote }) hE
    (fun process u s' hinv hadd => ⟨?_, _, moves_opening hanswers hnew hadd, rfl⟩)
    fun s e h => ?_).bind fun u q' hq' => ⟨rfl, hq'⟩
  · rw [Store.find?_addRecording_of_ne hadd (new.chosenId_ne hex).symm]
    exact hinv
  · rw [Store.addRecording_eq_error h]
    rfl

/-- Once the recording is marked as failed, the request answers for nothing. -/
theorem phased_failRecording (hE : ∀ e, e.isApi = false → E e q)
    (hq : q.recordingId = some recordingId) (reason : String) :
    (onStore (failRecording recordingId reason)).Phased (custody b)
      (fun _ q' => q' = { q with answers := false }) E q := by
  refine phased_onStore_tx hE (fun process u s' hinv h => ?_) fun s e h => by cases h
  cases h
  refine ⟨?_, _, moves_failing hq reason, rfl⟩
  rw [Store.find?_setRecording, Option.isSome_map]
  exact hinv

/-- Reading a recording leaves a request where it is. -/
theorem phased_getRecording (hE : ∀ e, e.isApi = false → E e q) (order : RowOrder)
    (recordingId : String) :
    (onStore (getRecording order recordingId)).Phased (custody b) (fun _ q' => q' = q) E q := by
  unfold getRecording
  rw [onStore_bind]
  refine phased_read_bind hE fun row => ?_
  cases row with
  | none => exact rfl
  | some row =>
    simp only
    rw [onStore_bind]
    exact phased_read_bind hE fun _ => rfl

/-- Adding events changes more than a recording's row. -/
theorem phased_appendEvents (hE : ∀ e, e.isApi = false → E e q) (events : List Event) :
    (onStore (appendEvents recordingId events)).Phased (custody b)
      (fun _ q' => q'.recordingId = q.recordingId ∧ q'.answers = q.answers) E q := by
  unfold appendEvents
  split_ifs
  · exact ⟨rfl, rfl⟩
  · rw [onStore_bind]
    refine (phased_onStore_tx (P := fun _ q' => q' = { q with wrote := true }) hE
      (fun process u s' hinv h => ?_) fun s e h => ?_).bind fun u q' hq' => ?_
    · obtain ⟨-, hrecordings, -⟩ := Store.addEvents_eq_ok h
      exact ⟨hrecordings ▸ hinv, _, moves_writing hrecordings rfl, rfl⟩
    · rw [(Store.addEvents_eq_error h).1]
      rfl
    · subst hq'
      exact ⟨rfl, rfl⟩

/-- A pump writes into the recording of its request only. -/
theorem phased_pump (hE : ∀ e (q' : Custody), e.isApi = false → q'.recordingId = q.recordingId →
      E e q') (events : List Event) :
    (onStore (pump recordingId events)).Phased (custody b)
      (fun _ q' => q'.recordingId = q.recordingId ∧ q'.answers = q.answers) E q := by
  induction events generalizing q with
  | nil => exact ⟨rfl, rfl⟩
  | cons event events ih =>
    unfold pump
    rw [onStore_bind]
    refine (phased_appendEvents (fun e he => hE e q he rfl) [event]).bind fun _ q' hq' => ?_
    exact (ih fun e q'' he hq'' => hE e q'' he (hq''.trans hq'.1)).mono
      (fun _ q'' h => ⟨h.1.trans hq'.1, h.2.trans hq'.2⟩) fun _ _ h => h

/-- A result that is raised as it is. -/
theorem phased_pluginResult {result : Except Error Unit} (hE : ∀ e, result = .error e → E e q) :
    (onStore (pluginResult result)).Phased (custody b) (fun _ q' => q' = q) E q := by
  cases result with
  | ok u => exact rfl
  | error e => exact hE e rfl

/-- A session that is registered takes the recording over from the request. -/
theorem phased_register (hE : ∀ e, e.isApi = false → E e q)
    (hq : q.recordingId = some recordingId) :
    (register recordingId).Phased (custody b) (fun _ q' => q'.answers = false) E q := by
  refine Prog.Phased.tx (fun process u process' hinv h => ?_) (fun process e h => by cases h) hE
  cases h
  exact ⟨hinv, _, moves_registering hq rfl rfl, rfl⟩

/-- A request that pops a session answers for its recording. -/
theorem phased_popSession (hE : ∀ e, e.isApi = false → E e q) (hanswers : q.answers = false)
    (recordingId : String) :
    (popSession recordingId).Phased (custody b)
      (fun found q' => q' =
        if found then { recordingId := some recordingId, answers := true, wrote := true } else q)
      E q := by
  refine Prog.Phased.tx (fun process found process' hinv h => ?_) (fun process e h => by cases h) hE
  cases h
  refine ⟨hinv, ?_⟩
  by_cases hlive : recordingId ∈ process.sessions
  · exact ⟨_, moves_popping hanswers rfl rfl, by rw [decide_eq_true hlive, if_pos rfl]⟩
  · -- without a session nothing changes
    have hsame : process.sessions.filter (· ≠ recordingId) = process.sessions :=
      List.filter_eq_self.mpr fun id hid => decide_eq_true fun heq => hlive (heq ▸ hid)
    refine ⟨q, ?_, by rw [decide_eq_false hlive, if_neg Bool.false_ne_true]⟩
    rw [hsame]
    exact .refl q process

/-- Who answers for a recording may finish it; it raises under the empty id when nobody can. -/
theorem phased_finishRecording (hcaught : ∀ e, caught e = true → e.isApi = true)
    (order : RowOrder) (hq : q.recordingId = some recordingId ∨ recordingId = "" ∧ b = false) :
    (finishRecording order recordingId).Phased (custody b)
      (fun _ q' => q'.answers = false ∧ q'.wrote = true) (Refuses caught) q := by
  have houtside : ∀ {q : Custody} (e : Error), e.isApi = false → Refuses caught e q :=
    refuses_of_outside hcaught
  rcases hq with hq | ⟨rfl, rfl⟩
  · refine phased_read_bind houtside fun row => ?_
    cases row with
    | none =>
      -- the KeyError of an unknown recording is none of the API's errors
      exact houtside _ rfl
    | some row =>
      refine phased_read_bind houtside fun events => ?_
      refine (phased_onStore_call (P := fun _ q' => q' = { q with wrote := true }) houtside
        (fun process path s' hinv hput => ?_) fun process e s' hinv hput => ?_).bind
          fun locator q' hq' => ?_
      · obtain ⟨-, b, rfl, -⟩ := Store.putBlob_eq_ok hput
        exact ⟨hinv, _, moves_writing rfl rfl, rfl⟩
      · obtain ⟨he, b, rfl, -⟩ := Store.putBlob_eq_error hput
        exact ⟨hinv, _, moves_writing rfl rfl, houtside e (isApi_of_putBlob he)⟩
      · -- the commit
        subst hq'
        refine Prog.Phased.bind (P := fun _ q' => q'.answers = false ∧ q'.wrote = true)
          (Prog.Phased.tx (fun process u process' hinv hcommit => ?_)
            (fun process e h => by cases h) fun e he => houtside e he) fun _ q' h => ?_
        · cases hcommit
          refine ⟨?_, _,
            moves_completing (q := { q with wrote := true }) hq events locator, rfl, rfl⟩
          show ((process.store.complete recordingId events locator).recordings.find? "").isSome = b
          rw [Store.find?_complete, Option.isSome_map]
          exact hinv
        · show q'.answers = false ∧ q'.wrote = true
          exact h
  · -- there is no recording under the empty id
    refine Prog.Phased.bind (P := fun row _ => row = none) ?_ fun row q' hrow => ?_
    · refine phased_onStore_tx houtside (fun process row s' hinv hread => ?_) fun s e h => by
        cases h
      cases hread
      exact ⟨hinv, q, .refl q process, Option.isNone_iff_eq_none.mp (by simpa using hinv)⟩
    · rw [hrow]
      exact houtside _ rfl

/-- A `try` whose handler fails the recording and raises. -/
theorem phased_failing {p : Prog Store Error Unit} {handled : Error → Error}
    {R : Custody → Prop} (hcaught : ∀ e, caught e = true → e.isApi = true)
    (hp : (onStore p).Phased (custody b) (fun _ q' => q'.recordingId = some recordingId)
      (fun _ q' => q'.recordingId = some recordingId ∧ R q') q)
    (hrefuses : ∀ e q', R q' → Refuses caught (handled e) { q' with answers := false }) :
    (onStore (tryCatch p fun exc => do
      failRecording recordingId exc.text
      throw (handled exc))).Phased (custody b) (fun _ q' => q'.recordingId = some recordingId)
        (Refuses caught) q := by
  rw [onStore_tryCatch]
  refine hp.tryCatch fun exc q' hq' => ?_
  rw [onStore_bind]
  refine (phased_failRecording (refuses_of_outside hcaught) hq'.1 exc.text).bind
    fun _ q'' hq'' => ?_
  subst hq''
  exact hrefuses exc q' hq'.2

end Steps

/-! ### The calls -/

section Calls

variable {b : Bool} {q : Custody}

/-- A `CaptureError` is one of the exceptions the API knows. -/
theorem isApi_of_isCaptureError (e : Error) (h : e.isCaptureError = true) : e.isApi = true := by
  cases e with
  | captureError message => rfl
  | _ => cases h

/-- So is a `ReplayError`. -/
theorem isApi_of_isReplayError (e : Error) (h : e.isReplayError = true) : e.isApi = true := by
  cases e with
  | replayError message => rfl
  | _ => cases h

/-- So is a `BundleError`. -/
theorem isApi_of_isBundleError (e : Error) (h : e.isBundleError = true) : e.isApi = true := by
  cases e with
  | bundleError message => rfl
  | _ => cases h

/-- A session that is refused has opened no recording that it does not end itself. -/
theorem phased_startSession (pluginName project title hex : String) (upstream : Option String)
    (plugin : String → PluginRun) :
    (startSession pluginName project title hex upstream plugin).Phased (custody b)
      (fun _ q' => q'.answers = false) (Refuses Error.isCaptureError) {} := by
  have houtside : ∀ {q : Custody} (e : Error), e.isApi = false →
      Refuses Error.isCaptureError e q := refuses_of_outside isApi_of_isCaptureError
  unfold startSession InfraReplay.startSession
  rw [onStore_bind]
  refine Prog.Phased.bind (P := fun id q' => q'.recordingId = some id) ?_ fun id q' hq' => ?_
  · refine (phased_startRecording houtside rfl (.inr rfl) _ hex).bind fun id q' hid => ?_
    obtain ⟨-, rfl⟩ := hid
    rw [onStore_bind]
    refine (phased_failing (R := fun q' => q'.wrote = false) isApi_of_isCaptureError ?_ ?_).bind
      fun _ q' hq' => hq'
    · -- the plugin starts, or raises what is made a `CaptureError`
      refine (phased_pluginResult fun e he => ?_).mono (fun _ q' hq' => ?_) fun _ _ h => h
      · exact ⟨rfl, rfl⟩
      · rw [hq']
    · exact fun e q' hwrote _ => ⟨rfl, hwrote⟩
  · exact (phased_register houtside hq').bind fun _ q'' h => h

/-- A stop that is refused has found no session. -/
theorem phased_stopSession (order : RowOrder) (recordingId : String)
    {stopped drained : Except Error Unit}
    (hstopped : ∀ e, stopped = .error e → e.isCaptureError = false)
    (hdrained : ∀ e, drained = .error e → e.isCaptureError = false) :
    (stopSession order recordingId stopped drained).Phased (custody b)
      (fun _ q' => q'.answers = false) (Refuses Error.isCaptureError) {} := by
  have hplain : ∀ {q : Custody} (e : Error), e.isCaptureError = false →
      Refuses Error.isCaptureError e q := fun e he h => by
    rw [he] at h
    cases h
  refine (phased_popSession (refuses_of_outside isApi_of_isCaptureError) rfl recordingId).bind
    fun found q' hq' => ?_
  cases found with
  | false =>
    -- refused, and nothing has been done
    subst hq'
    exact fun _ => ⟨rfl, rfl⟩
  | true =>
    subst hq'
    refine (phased_pluginResult fun e he => hplain e (hstopped e he)).bind fun _ q' hq' => ?_
    subst hq'
    refine (phased_pluginResult fun e he => hplain e (hdrained e he)).bind fun _ q' hq' => ?_
    subst hq'
    exact (phased_finishRecording isApi_of_isCaptureError order (.inl rfl)).mono
      (fun _ _ h => h.1) fun _ _ h => h

/-- Events that are refused are not appended. -/
theorem phased_ingestEvents (recordingId : String) (events : List Event) :
    (onStore (ingestEvents recordingId events)).Phased (custody b)
      (fun _ q' => q'.answers = false) (Refuses Error.isCaptureError) {} := by
  have houtside : ∀ {q : Custody} (e : Error), e.isApi = false →
      Refuses Error.isCaptureError e q := refuses_of_outside isApi_of_isCaptureError
  unfold ingestEvents getStatus
  rw [onStore_bind]
  refine phased_read_bind houtside fun status => ?_
  cases ingestRefusal recordingId status with
  | some e => exact fun _ => ⟨rfl, rfl⟩
  | none =>
    simp only
    rw [onStore_bind]
    exact (phased_appendEvents houtside _).bind fun _ q' hq' => hq'.2

/-- A call that answers for what it finishes, or finishes nothing under the empty id. -/
theorem phased_finishing {α β : Type} {caught : Error → Bool} {P : α → Custody → Prop}
    (hcaught : ∀ e, caught e = true → e.isApi = true) (order : RowOrder)
    {before : Prog Store Error β} {id : β → String} {after : β → Recording → Prog Store Error α}
    (hbefore : (onStore before).Phased (custody b)
      (fun opened q' => q'.recordingId = some (id opened) ∨ id opened = "" ∧ b = false)
      (Refuses caught) q)
    (hafter : ∀ opened recording q', q'.answers = false → q'.wrote = true →
      (onStore (after opened recording)).Phased (custody b) P (Refuses caught) q') :
    (finishing order before id after).Phased (custody b) P (Refuses caught) q :=
  hbefore.bind fun opened _ hq' =>
    (phased_finishRecording hcaught order hq').bind fun recording q' hq' =>
      hafter opened recording q' hq'.1 hq'.2

/-- `capture_recording`; whatever it raises is answered 500. -/
theorem phased_captureRecording (order : RowOrder) (project title pluginName hex : String)
    (plugin : String → PluginRun) (hanswers : q.answers = false)
    (hnew : q.wrote = true ∨ q.recordingId = none) :
    (captureRecording order project title pluginName hex plugin).Phased (custody b)
      (fun _ q' => q'.answers = false ∧ q'.wrote = true) (Refuses fun _ => false) q := by
  have hnever : ∀ {q : Custody} (e : Error), Refuses (fun _ => false) e q := fun e h => by cases h
  refine phased_finishing (fun e h => by cases h) order ?_ fun _ _ q' hq' hw' => ⟨hq', hw'⟩
  unfold capturedRecording
  rw [onStore_bind]
  refine (phased_startRecording (fun e _ => hnever e) hanswers hnew _ hex).bind fun id q' hid => ?_
  obtain ⟨-, rfl⟩ := hid
  rw [onStore_bind]
  refine (phased_failing (R := fun _ => True) (fun e h => by cases h) ?_
    fun e q' _ => hnever e).bind fun _ q' hq' => .inl hq'
  -- the plugin starts, yields and stops; whatever raises, the recording is the same
  rw [onStore_bind]
  refine (phased_pluginResult fun e he => ⟨rfl, trivial⟩).bind fun _ q₁ hq₁ => ?_
  subst hq₁
  rw [onStore_bind]
  refine (phased_pump (fun e q₂ _ hq₂ => ⟨hq₂, trivial⟩) _).bind fun _ q₂ hq₂ => ?_
  exact (phased_pluginResult fun e he => ⟨hq₂.1, trivial⟩).mono
    (fun _ q₃ hq₃ => hq₃ ▸ hq₂.1) fun _ _ h => h

/-- A bundle that is refused is not imported. -/
theorem phased_importRecording (models : Models) (order : RowOrder) (hex recordingHex : String)
    (eventHexes : List String) (doc : Dict String Value) :
    (importRecording models order hex recordingHex eventHexes doc).Phased (custody b)
      (fun _ q' => q'.answers = false) (Refuses Error.isBundleError) {} := by
  have houtside : ∀ {q : Custody} (e : Error), e.isApi = false →
      Refuses Error.isBundleError e q := refuses_of_outside isApi_of_isBundleError
  refine phased_finishing isApi_of_isBundleError order ?_ fun _ _ q' hq' _ => hq'
  unfold importAppended importOpened
  rw [onStore_bind]
  refine Prog.Phased.bind
    (P := fun r q' => q'.recordingId = some r.recordingId ∨ r.recordingId = "" ∧ b = false) ?_
    fun r q' hq' => ?_
  · cases parseBundle models doc with
    | error e => exact fun _ => ⟨rfl, rfl⟩
    | ok r =>
      simp only
      rw [onStore_bind]
      -- a bundle without an id is not re-keyed when no recording has the empty id
      have hcheck : (onStore (getStatus r.recordingId)).Phased (custody b)
          (fun status q' => q' = {} ∧ (r.recordingId = "" → status.isSome = b))
          (Refuses Error.isBundleError) {} := by
        unfold getStatus Prog.read
        refine phased_onStore_tx houtside (fun process status s' hinv hread => ?_)
          fun s e h => by cases h
        cases hread
        refine ⟨hinv, {}, .refl _ process, rfl, fun hempty => ?_⟩
        rw [hempty, Option.isSome_map]
        exact hinv
      refine hcheck.bind fun status q' ⟨hq', hstatus⟩ => ?_
      subst hq'
      rw [onStore_bind]
      refine (phased_startRecording houtside rfl (.inr rfl) _ hex).bind fun id q' hid => ?_
      obtain ⟨rfl, rfl⟩ := hid
      by_cases hnamed : (if status.isSome then rekey recordingHex eventHexes r
        else r).recordingId = ""
      · refine .inr ⟨hnamed, ?_⟩
        split_ifs at hnamed with hsome
        · exact absurd hnamed (newId_ne _ _)
        · rw [← hstatus hnamed]
          simpa using hsome
      · left
        rw [chosenId_asNew hnamed]
  · rw [onStore_bind]
    refine (phased_appendEvents houtside _).bind fun _ q'' hq'' => ?_
    rw [← hq''.1] at hq'
    exact hq'

/-- A replay that is refused has opened no recording, or has marked its own as failed. -/
theorem phased_runReplay (cfg : Config) (order : RowOrder) (env : ReplayEnv)
    (options : ReplayOptions) (recordingId : String) :
    (runReplay cfg order env options recordingId).Phased (custody b)
      (fun _ q' => q'.answers = false) (Refuses Error.isReplayError) {} := by
  have houtside : ∀ {q : Custody} (e : Error), e.isApi = false →
      Refuses Error.isReplayError e q := refuses_of_outside isApi_of_isReplayError
  refine phased_finishing isApi_of_isReplayError order ?_ fun source run q' hq' _ => ?_
  · unfold replayStored
    rw [onStore_bind]
    refine Prog.Phased.bind (P := fun _ q' => q' = {}) ?_ fun _ q' hq' => ?_
    · cases ensureSafe options.target options.safety with
      | ok u => exact rfl
      | error e => exact fun _ => ⟨rfl, rfl⟩
    subst hq'
    rw [onStore_bind]
    refine (phased_getRecording houtside order recordingId).bind fun found q' hq' => ?_
    subst hq'
    cases found with
    | none => exact fun _ => ⟨rfl, rfl⟩
    | some source =>
      simp only
      rw [onStore_bind]
      refine (phased_startRecording houtside rfl (.inr rfl) _ env.hex).bind fun id q' hid => ?_
      obtain ⟨rfl, rfl⟩ := hid
      rw [chosenId_replayRow, onStore_bind, onStore_tryCatch]
      refine Prog.Phased.bind
        (P := fun _ q' => q'.recordingId = some (newId "rpl" env.hex)) ?_ fun _ q' hq' => ?_
      · cases replayedEvents env options source with
        | ok replayed => exact rfl
        | error e =>
          cases e with
          | replayError message =>
            -- the recording is failed before the error is raised again
            show (onStore (failReplay (newId "rpl" env.hex) (.replayError message))).Phased _ _ _ _
            unfold failReplay
            rw [onStore_bind]
            refine (phased_failRecording houtside rfl message).bind fun _ q' hq' => ?_
            subst hq'
            exact fun _ => ⟨rfl, rfl⟩
          | _ => exact fun h => by cases h
      · rw [onStore_bind]
        exact (phased_appendEvents houtside _).bind fun _ q'' hq'' => .inl (hq''.1.trans hq')
  · unfold compareReplayed linkReplayEvents saveComparison
    rw [onStore_bind]
    refine Prog.Phased.bind (P := fun _ q' => q'.answers = false) (phased_onStore_tx houtside
      (fun process u s' hinv h => ?_) fun s e h => by cases h) fun _ q'' hq'' => ?_
    · cases h
      have hrecordings := (Store.linkEvents_frame (linkStreams source.events run.events)
        process.store).1
      exact ⟨hrecordings ▸ hinv, _, moves_writing hrecordings rfl, hq'⟩
    · rw [onStore_bind]
      refine Prog.Phased.bind (P := fun _ q' => q'.answers = false) (phased_onStore_tx houtside
        (fun process u s' hinv h => ?_) fun s e h => by cases h) fun _ q₃ hq₃ => ?_
      · cases h
        exact ⟨hinv, _, moves_writing rfl rfl, hq''⟩
      · show q₃.answers = false
        exact hq₃

end Calls

/-! ### The requests -/

section Requests

variable {b : Bool} {q : Custody} {α : Type}

/-- Where a request may stand when it has been answered. -/
def Answered (refusal : Option (ℕ × String)) (q : Custody) : Prop :=
  q.answers = false ∧ (refusal ≠ none → q.wrote = false)

/-- A custody that answers for nothing has answered. -/
theorem answered_none (h : q.answers = false) : Answered none q :=
  ⟨h, fun hne => absurd rfl hne⟩

/-- A route translates the refusals of what it calls, and nothing else. -/
theorem phased_translating {caught : Error → Bool} {p : Prog Process Error α}
    (hp : p.Phased (custody b) (fun _ q' => q'.answers = false) (Refuses caught) q) :
    (translating caught p).Phased (custody b) (fun answer q' => Answered answer.refusal q')
      (fun _ _ => True) q := by
  unfold translating
  refine Prog.Phased.tryCatch (E := Refuses caught) (hp.bind fun a q' hq' => ?_) fun e q' he => ?_
  · exact answered_none hq'
  · split_ifs with hcaught
    · obtain ⟨hanswers, hwrote⟩ := he hcaught
      exact ⟨hanswers, fun _ => hwrote⟩
    · trivial

/-- A route that only reads. -/
theorem phased_found {p : Prog Store Error α} {β : Type} {answer : α → Answer β}
    (hp : (onStore p).Phased (custody b) (fun _ q' => q' = {}) (fun _ _ => True) {}) :
    (onStore p >>= fun a => return answer a).Phased (custody b)
      (fun answer q' => Answered answer.refusal q') (fun _ _ => True) {} := by
  refine hp.bind fun a q' hq' => ?_
  subst hq'
  exact ⟨rfl, fun _ => rfl⟩

/-- Seeding refuses nothing. -/
theorem phased_seedFrom (order : RowOrder)
    (captures : List ((Scenario × String) × String × StreamIds)) (hanswers : q.answers = false)
    (hnew : q.wrote = true ∨ q.recordingId = none) :
    (seedFrom order captures).Phased (custody b) (fun _ q' => q'.answers = false)
      (Refuses fun _ => false) q := by
  induction captures generalizing q with
  | nil => exact hanswers
  | cons capture captures ih =>
    obtain ⟨⟨scenario, title⟩, hex, ids⟩ := capture
    unfold seedFrom
    refine (phased_captureRecording order "default" title "mock_capture" hex _ hanswers hnew).bind
      fun recording q' hq' => ?_
    exact (ih hq'.1 (.inl hq'.2)).bind fun recordings q'' hq'' => hq''

/-- Every request makes only moves of its custody, and answers for nothing when it is answered. -/
theorem phased_of_isRequest {p : Prog Process Error (Option (ℕ × String))} (hp : IsRequest p) :
    p.Phased (custody b) Answered (fun _ _ => True) {} := by
  obtain ⟨h⟩ := hp
  refine Prog.Phased.bind (P := fun answer q' => Answered answer.refusal q') ?_
    fun answer q' hq' => ?_
  case refine_2 =>
    show Answered answer.refusal q'
    exact hq'
  cases h with
  | startCapture registry pluginName project title hex upstream port =>
    unfold startCapture
    cases registry.capture pluginName with
    | error message =>
      -- an unknown plugin is refused before anything is written
      exact ⟨rfl, fun _ => rfl⟩
    | ok cls =>
      exact phased_translating
        ((phased_startSession pluginName project title hex upstream cls.body).bind
          fun _ _ hq' => hq')
  | stopCapture order recordingId stopped drained hstopped hdrained =>
    exact phased_translating (phased_stopSession order recordingId hstopped hdrained)
  | ingest recordingId events => exact phased_translating (phased_ingestEvents recordingId events)
  | recording order recordingId =>
    exact phased_found (phased_getRecording (fun _ _ => trivial) order recordingId)
  | exportBundle order exportedAt recordingId =>
    -- the bundle is built from what was read, without another operation
    refine phased_found ?_
    unfold exportRecording
    rw [onStore_bind]
    refine (phased_getRecording (fun _ _ => trivial) order recordingId).bind fun _ q' hq' => ?_
    exact hq'
  | importBundle models order hex recordingHex eventHexes doc =>
    exact phased_translating
      (phased_importRecording models order hex recordingHex eventHexes doc)
  | validate models doc =>
    unfold validate
    cases validateBundle models doc with
    | ok verdict => exact answered_none rfl
    | error e =>
      -- a 500 promises nothing about what is left behind
      trivial
  | createReplay cfg order env req =>
    exact phased_translating
      ((phased_runReplay cfg order env req.options req.recordingId).bind fun _ _ hq' => hq')
  | comparison replayRecordingId =>
    exact phased_found (phased_read (fun _ _ => trivial) _)
  | seed order clean buggy =>
    exact ((phased_seedFrom order _ rfl (.inr rfl)).mono (fun _ _ h => h)
      fun _ _ _ => trivial).bind fun _ q' hq' => answered_none hq'

end Requests

/-! ### Runs -/

section Runs

/-- What else happens: pumps store events, and nothing touches recordings or sessions. -/
def Background (process process' : Process) : Prop :=
  process'.sessions = process.sessions ∧ process'.store.recordings = process.store.recordings

/-- A pump is such a thing. -/
theorem always_background_pump (recordingId : String) (events : List Event) :
    (onStore (pump recordingId events)).Always Background :=
  (always_pump recordingId events).zoom fun _ _ h => ⟨rfl, h⟩

/-- Requests come in, any step of theirs may fail with what no route translates, and pumps run. -/
abbrev Serves := Crew.Allowed IsRequest (fun e => e.isApi = false) Background

/-- How the custodies of all requests fit the process, since it was `process₀`. -/
structure Fits (process₀ : Process) (i : ℕ) (process : Process) (phase : ℕ → Custody) : Prop where
  atLarge : ∀ id ∈ process.atLarge, id ∈ process₀.atLarge ∨ ∃ j, (phase j).AnswersFor id
  kept : ∀ id, (process₀.store.recordings.find? id).isSome →
    (process.store.recordings.find? id).isSome
  /-- What the request at the place has opened is new. -/
  opened : ∀ id, (phase i).wrote = false → (phase i).recordingId = some id →
    process₀.store.recordings.find? id = none

variable {process₀ process process' : Process} {phase : ℕ → Custody} {i : ℕ}

/-- A request that goes on within its custody still fits. -/
theorem Fits.move {j : ℕ} {q' : Custody} (h : Fits process₀ i process phase)
    (hmove : (phase j).Moves process process' q') :
    Fits process₀ i process' (Function.update phase j q') where
  atLarge id hid := by
    rcases hmove.atLarge id hid with hanswers | ⟨hbefore, hnot⟩
    · exact .inr ⟨j, by rw [Function.update_self]; exact hanswers⟩
    · rcases h.atLarge id hbefore with hstart | ⟨k, hk⟩
      · exact .inl hstart
      · -- somebody else answers for it
        have hne : k ≠ j := by
          rintro rfl
          exact hnot hk
        exact .inr ⟨k, by rw [Function.update_of_ne hne]; exact hk⟩
  kept id hid := hmove.kept id (h.kept id hid)
  opened id hwrote hid := by
    -- only the phase of the task that moved has changed
    by_cases hij : i = j
    · subst hij
      rw [Function.update_self] at hwrote hid
      obtain ⟨hbefore, -, hsame | ⟨-, hnew⟩⟩ := hmove.wrote hwrote
      · exact h.opened id hbefore (hsame.trans hid)
      · -- it was not there a step ago, so it was not there at the start
        rw [← Option.not_isSome_iff_eq_none]
        intro hthere
        have hthen := h.kept id hthere
        rw [hnew id hid] at hthen
        cases hthen
    · rw [Function.update_of_ne hij] at hwrote hid
      exact h.opened id hwrote hid

/-- The pumps do not disturb what fits. -/
theorem Fits.background (h : Fits process₀ i process phase) (hb : Background process process') :
    Fits process₀ i process' phase where
  atLarge id hid := by
    obtain ⟨⟨row, hrow, hstatus⟩, hlive⟩ := hid
    exact h.atLarge id ⟨⟨row, hb.2 ▸ hrow, hstatus⟩, hb.1 ▸ hlive⟩
  kept id hid := by
    rw [hb.2]
    exact h.kept id hid
  opened := h.opened

/-- The requests under way are in custodies that fit what has happened since. -/
abbrev InCustody (process₀ : Process) (i : ℕ) (c : Crew Process Error (Option (ℕ × String))) :
    (ℕ → Custody) → Prop :=
  c.InPhases (custody (process₀.store.recordings.find? "").isSome) Answered (fun _ _ => True) {}
    (Fits process₀ i)

variable {c c₀ : Crew Process Error (Option (ℕ × String))}
  {turns turns₀ : List (Crew.Turn Process Error (Option (ℕ × String)))}

/-- What happens keeps the custodies, and leads back from a clean one. -/
theorem inCustody_run (h₀ : InCustody process₀ i c₀ phase)
    (hserves : Machine.Along Crew.step Serves c₀ turns)
    (hrun : Machine.run Crew.step c₀ turns = some c) :
    ∃ phase', InCustody process₀ i c phase' ∧
      ∀ (clean : Custody → Prop) (good : Process → Process → Prop),
        (∀ (q : Custody) s s' q', q.Moves s s' q' → clean q' → clean q ∧ good s s') →
          ∀ j, clean (phase' j) →
            clean (phase j) ∧ Machine.Along Crew.step (Crew.Steps j good) c₀ turns := by
  refine h₀.run (fun p hp => phased_of_isRequest hp)
    (fun _ _ _ _ _ _ hfits hmove => hfits.move hmove)
    (fun s s' phase hinv hfits hb => ⟨?_, hfits.background hb⟩) hserves hrun
  show (s'.store.recordings.find? "").isSome = _
  rw [hb.2]
  exact hinv

/-- No request is under way. -/
theorem inCustody_nil (process₀ : Process) (i : ℕ) :
    InCustody process₀ i ⟨process₀, []⟩ fun _ => {} where
  inv := rfl
  task j p hj := by
    rw [List.getElem?_nil] at hj
    cases hj
  beyond _ _ := rfl
  fits := ⟨fun id hid => .inl hid, fun id h => h, fun id _ hid => by cases hid⟩

/-- **Nothing is left open by a request that is answered.** Whatever requests run, in any order of
their transactions and whichever of these fail: the recordings that are RECORDING without a live
session, and were not when the process started, are at most as many as the requests that are under
way or have been answered 500. -/
theorem atLarge_of_run (hserves : Machine.Along Crew.step Serves ⟨process₀, []⟩ turns)
    (hrun : Machine.run Crew.step ⟨process₀, []⟩ turns = some c) :
    (c.state.atLarge \ process₀.atLarge).encard ≤
      c.tasks.countP fun request => request.value?.isNone := by
  obtain ⟨phase, hc, -⟩ := inCustody_run (inCustody_nil process₀ 0) hserves hrun
  apply Crew.encard_le_countP fun j => (phase j).recordingId
  intro id hid
  rcases hc.fits.atLarge id hid.1 with hstart | ⟨j, hanswers, hheld⟩
  · exact absurd hstart hid.2
  -- the request that answers for it has come in, and has not been answered
  have hlt : j < c.tasks.length := by
    by_contra hge
    rw [hc.beyond j (Nat.le_of_not_lt hge)] at hanswers
    cases hanswers
  refine ⟨j, c.tasks[j], List.getElem?_eq_getElem hlt, ?_, hheld⟩
  have hphased := hc.task j _ (List.getElem?_eq_getElem hlt)
  cases hrequest : c.tasks[j] with
  | ret refusal =>
    rw [hrequest] at hphased
    exact absurd (hphased.1.symm.trans hanswers) Bool.false_ne_true
  | raise e => rfl
  | atomic upd next => rfl

/-- A process that has just been started. -/
def idle : Process := ⟨Store.empty, [], []⟩

/-- Plugins of which one does not start. -/
def brokenPlugin : PluginRegistry (String → PluginRun) :=
  (PluginRegistry.empty _).put .capture "broken"
    { contracts := [.capture], impl := "plugins.Broken", repr := "<class 'plugins.Broken'>"
      body := fun _ => { started := .error (.pluginError "no upstream"), events := [] } }

/-- The client asks for that plugin. -/
def brokenStart : Prog Process Error (Option (ℕ × String)) :=
  startCapture brokenPlugin "broken" "default" "" "a" none 0 >>= fun answer =>
    return answer.refusal

/-- The request is answered 500: the recording was opened, and marking it failed. -/
def crashedStart : List (Crew.Turn Process Error (Option (ℕ × String))) :=
  [.joins brokenStart, .step 0, .fails 0 (.databaseError "connection lost")]

theorem serves_crashedStart : Machine.Along Crew.step Serves ⟨idle, []⟩ crashedStart :=
  ⟨.intro (.startCapture ..), trivial, rfl, trivial⟩

theorem atLarge_of_run_crashed :
    ∃ c, Machine.run Crew.step ⟨idle, []⟩ crashedStart = some c ∧ "rec_a" ∈ c.state.atLarge ∧
      (c.state.atLarge \ idle.atLarge).encard ≤ 1 :=
  ⟨_, rfl, ⟨⟨_, rfl, rfl⟩, List.not_mem_nil⟩, atLarge_of_run serves_crashedStart rfl⟩

/-- What touches no recording touches at most one. -/
theorem OnlyRow.mono {recordingId : Option String} (h : OnlyRow none process process') :
    OnlyRow recordingId process process' :=
  { h with others := fun id _ => h.others id (Option.some_ne_none id).symm }

/-- **A refusal changes nothing.** When a request that comes in after some moment is answered 400 or
404, each of its steps has left sessions, events, comparisons, snapshots and every recording as they
were, except for the row of at most one recording, which was not there at that moment. -/
theorem onlyRow_of_refused (hserves₀ : Machine.Along Crew.step Serves ⟨process₀, []⟩ turns₀)
    (hrun₀ : Machine.run Crew.step ⟨process₀, []⟩ turns₀ = some c₀)
    (hserves : Machine.Along Crew.step Serves c₀ turns)
    (hrun : Machine.run Crew.step c₀ turns = some c) (hlater : c₀.tasks.length ≤ i)
    {refusal : ℕ × String} (hrefused : c.tasks[i]? = some (.ret (some refusal))) :
    ∃ recordingId : Option String,
      (∀ id, recordingId = some id → c₀.state.store.recordings.find? id = none) ∧
        Machine.Along Crew.step (Crew.Steps i (OnlyRow recordingId)) c₀ turns := by
  obtain ⟨phase₀, h₀, -⟩ := inCustody_run (inCustody_nil process₀ i) hserves₀ hrun₀
  -- what is told from the moment on: the request has not come in yet
  have hinv : (c₀.state.store.recordings.find? "").isSome =
      (process₀.store.recordings.find? "").isSome := h₀.inv
  have hlater₀ : phase₀ i = {} := h₀.beyond i hlater
  have hfits : Fits c₀.state i c₀.state phase₀ :=
    ⟨fun id hid => .inl hid, fun id h => h, fun id _ hid => by rw [hlater₀] at hid; cases hid⟩
  have hc₀ : InCustody c₀.state i c₀ phase₀ :=
    ⟨rfl, fun j p hj => hinv ▸ h₀.task j p hj, h₀.beyond, hfits⟩
  obtain ⟨phase, hc, hback⟩ := inCustody_run hc₀ hserves hrun
  obtain ⟨-, hwrote⟩ := hc.task i _ hrefused
  have hclean : (phase i).wrote = false := hwrote (Option.some_ne_none refusal)
  refine ⟨(phase i).recordingId, fun id hid => hc.fits.opened id hclean hid, ?_⟩
  -- a request that has changed nothing else keeps to one recording
  refine (hback (fun q => q.wrote = false ∧
    (q.recordingId = none ∨ q.recordingId = (phase i).recordingId)) _ ?_ i
      ⟨hclean, .inr rfl⟩).2
  rintro q s s' q' hmove ⟨hwrote', hrecording⟩
  obtain ⟨hbefore, honly, hkept⟩ := hmove.wrote hwrote'
  refine ⟨⟨hbefore, ?_⟩, ?_⟩
  · rcases hkept with hsame | ⟨hnone, -⟩
    · rwa [hsame]
    · exact .inl hnone
  · rcases hrecording with hnone | hsame
    · rw [hnone] at honly
      exact honly.mono
    · rwa [hsame] at honly

/-- The request is answered 400: the recording was opened and marked FAILED. -/
def refusedStart : List (Crew.Turn Process Error (Option (ℕ × String))) :=
  [.joins brokenStart, .step 0, .step 0]

theorem serves_refusedStart : Machine.Along Crew.step Serves ⟨idle, []⟩ refusedStart :=
  ⟨.intro (.startCapture ..), trivial, trivial, trivial⟩

theorem onlyRow_of_refused_start :
    ∃ c detail, Machine.run Crew.step ⟨idle, []⟩ refusedStart = some c ∧
      c.tasks[0]? = some (.ret (some (badRequest, detail))) ∧
      ∃ recordingId : Option String,
        (∀ id, recordingId = some id → idle.store.recordings.find? id = none) ∧
          Machine.Along Crew.step (Crew.Steps 0 (OnlyRow recordingId)) ⟨idle, []⟩ refusedStart :=
  have hidle : Machine.Along Crew.step Serves ⟨idle, []⟩ [] := trivial
  ⟨_, "no upstream", rfl, rfl,
    onlyRow_of_refused hidle rfl serves_refusedStart rfl (Nat.zero_le 0) rfl⟩

end Runs

end Process

end InfraReplay
