import Mathlib.Data.List.Infix
import InfraReplay.Recording.Store
import InfraReplay.Replay.Substitution

/-!
# Replaying a recording against a target

`ensure_safe` and `replay_recording`. The canonical events of the mock target and the sending of
the rewritten payloads to a live target are parameters: the first is a fixed table, the second is
`HttpRun`.
-/

namespace InfraReplay

open Python

/-- `MOCK_TARGET`. -/
def mockTarget : String := "mock"

/-- `_HTTP_SCHEMES`. -/
def httpSchemes : List String := ["http://", "https://"]

/-- `PROD_TARGET_MARKERS`. -/
def prodTargetMarkers : List String := ["prod", "production", "live"]

/-- `SafetyMode`. -/
inductive SafetyMode where
  | safe
  | unsafe_
  deriving DecidableEq

/-- `_looks_like_prod`. -/
def looksLikeProd (target : String) : Bool :=
  prodTargetMarkers.any fun marker => decide (marker.toList <:+: (lower target).toList)

/-- `ensure_safe`. -/
def ensureSafe (target : String) (safety : SafetyMode) : Except Error Unit :=
  if safety = .safe ∧ looksLikeProd target = true then
    throw (.replayError
      ("target " ++ quoted target ++ " looks like production; pass unsafe to override"))
  else return ()

/-- The arguments of a replay besides its source. -/
structure ReplayOptions where
  target : String
  safety : SafetyMode := .safe
  substitutions : Dict String String := []
  auto : AutoMode := .off
  concurrency : ℤ := 1

/-- `_replay_mock`, where `canonical` is `build(replay_recording_id, Scenario.CLEAN)`. -/
def replayMock (supply : Supply) (canonical : List Event) :
    SubstitutionEngine → List Event → List Event
  | _, [] => []
  | subs, original :: originals =>
    match (Dict.ofPairs (canonical.map fun e => (e.sequence, e))).get? original.sequence with
    -- an original beyond the canonical ones is skipped
    | none => replayMock supply canonical subs originals
    | some standIn =>
      let correlationId := (canonical.head?.map Event.correlationId).getD ""
      if original.eventType = .httpRequest then
        { standIn with
          payload := (subs.apply supply original.payload).1
          correlationId := correlationId } ::
          replayMock supply canonical (subs.apply supply original.payload).2 originals
      else
        { standIn with correlationId := correlationId } ::
          replayMock supply canonical subs originals

/-- The requests of a recording, in order. -/
def requestsOf (events : List Event) : List Event :=
  events.filter fun e => e.eventType = .httpRequest

/-- The payloads `_replay_http` sends. -/
def sentPayloads (supply : Supply) (subs : SubstitutionEngine) (source : Recording) :
    List Payload :=
  subs.applyAll supply ((requestsOf source.events).map Event.payload)

/-- `_replay_http`, where `send` is what the client returns for the payloads, batch by batch. -/
def replayHttp (supply : Supply) (send : List Payload → Except Error (List Event))
    (subs : SubstitutionEngine) (source : Recording) : Except Error (List Event) :=
  if requestsOf source.events = [] then
    throw (.replayError "recording contains no HTTP requests to replay")
  else send (sentPayloads supply subs source)

/-- `replay_recording`. -/
def replayRecording (supply : Supply) (canonical : List Event)
    (send : List Payload → Except Error (List Event)) (options : ReplayOptions)
    (source : Recording) : Except Error (List Event) := do
  ensureSafe options.target options.safety
  if source.events = [] then throw (.replayError "source recording has no events to replay")
  let subs := SubstitutionEngine.create supply options.substitutions options.auto
  if options.target = mockTarget then return replayMock supply canonical subs source.events
  if httpSchemes.any (startsWith options.target) then replayHttp supply send subs source
  else throw (.replayError ("unsupported replay target " ++ quoted options.target))

end InfraReplay
