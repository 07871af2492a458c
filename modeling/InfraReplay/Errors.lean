import InfraReplay.Python.FileTree
import InfraReplay.Python.Text

/-!
# The exceptions of the modelled code

`Error` lists them, each with its message. Which of them a caller catches is said where it is
caught.
-/

namespace InfraReplay

open Python

/-- The exceptions the modelled code raises, each with its message. -/
inductive Error where
  /-- A primary key is taken. -/
  | integrity
  /-- `ValueError` of the storage plugin. -/
  | unsafeKey (key : String)
  /-- The operating system refuses an operation on a file. -/
  | osError (e : OsError)
  | keyError (key : String)
  | typeError (message : String)
  | attributeError (message : String)
  | valueError (message : String)
  /-- A model refuses its input. -/
  | validationError (message : String)
  | captureError (message : String)
  | replayError (message : String)
  | bundleError (message : String)
  /-- The database refuses a value. -/
  | databaseError (message : String)
  /-- Whatever a plugin raises. -/
  | pluginError (message : String)
  deriving DecidableEq

/-- `str(exc)`; that of an `OSError` without the number and the path. -/
def Error.text : Error → String
  | .integrity => "UNIQUE constraint failed"
  | .unsafeKey key => "unsafe blob key: " ++ quoted key
  | .osError e => e.text
  | .keyError key => quoted key
  | .typeError message => message
  | .attributeError message => message
  | .valueError message => message
  | .validationError message => message
  | .captureError message => message
  | .replayError message => message
  | .bundleError message => message
  | .databaseError message => message
  | .pluginError message => message

end InfraReplay
