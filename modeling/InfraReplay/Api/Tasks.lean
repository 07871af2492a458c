import InfraReplay.Capture.Session
import InfraReplay.Recording.Portable
import InfraReplay.Replay.Runner

/-!
# Everything that writes to the store

The operations behind the endpoints, as tasks that take turns: capture sessions and their pumps,
one-shot captures, ingests, imports, finishes and replays with their comparisons. `Reachable` is
what any number of them can make of an empty store, whatever plugins, bundles and targets say.
-/

namespace InfraReplay

open Python

/-- A task that writes. -/
inductive Operation : {α : Type} → Prog Store Error α → Prop
  | startSession (pluginName project title hex : String) (upstream : Option String)
      (plugin : String → PluginRun) :
      Operation (startSession pluginName project title hex upstream plugin)
  | pump (recordingId : String) (events : List Event) : Operation (pump recordingId events)
  | closeSession (order : RowOrder) (recordingId : String) (stopped : Except Error Unit) :
      Operation (closeSession order recordingId stopped)
  | captureRecording (order : RowOrder) (project title pluginName hex : String)
      (plugin : String → PluginRun) :
      Operation (captureRecording order project title pluginName hex plugin)
  | ingestEvents (recordingId : String) (events : List Event) :
      Operation (ingestEvents recordingId events)
  | importRecording (models : Models) (order : RowOrder) (hex recordingHex : String)
      (eventHexes : List String) (doc : Dict String Value) :
      Operation (importRecording models order hex recordingHex eventHexes doc)
  | finishRecording (order : RowOrder) (recordingId : String) :
      Operation (finishRecording order recordingId)
  | runReplay (cfg : Config) (order : RowOrder) (env : ReplayEnv) (options : ReplayOptions)
      (recordingId : String) : Operation (runReplay cfg order env options recordingId)

/-- An operation whose caller drops its value. -/
inductive IsTask : Prog Store Error Unit → Prop
  | intro {α : Type} {p : Prog Store Error α} (h : Operation p) : IsTask p.discard

/-- The tasks under way and the store they have made of an empty one. -/
abbrev Runs : List (Prog Store Error Unit) → Store → Prop :=
  Interleaves (fun s => s = Store.empty) IsTask

/-- A store that operations can produce. -/
def Reachable (s : Store) : Prop := ∃ tasks, Runs tasks s

theorem reachable_empty : Reachable Store.empty := ⟨[], .init rfl⟩

/-- What an operation makes of a reachable store on its own is reachable. -/
theorem Reachable.run {α : Type} {p : Prog Store Error α} {s : Store} (h : Reachable s)
    (hp : Operation p) : Reachable (p.discard.run s).2 := by
  obtain ⟨tasks, hruns⟩ := h
  obtain ⟨p', hrun⟩ := (hruns.spawn (.intro hp)).run
  exact ⟨_, hrun⟩

/-- What an operation returns that runs without interruption. -/
theorem Reachable.returns {α : Type} {p : Prog Store Error α} {s : Store} {a : α}
    (h : Reachable s) (hp : Operation p) (hrun : (p.run s).1 = .ok a) :
    p.Returns Reachable a := by
  obtain ⟨tasks, hruns⟩ := h
  exact (hruns.spawn (.intro hp)).returns hrun

end InfraReplay
