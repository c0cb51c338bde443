/-
The faults that callers of the relay see, with their wording.
-/
import ChangeRelay.Disk.Fault
import ChangeRelay.Json.Token
import ChangeRelay.Pattern.Basic

namespace ChangeRelay

/-- A fault that a caller of the relay sees. -/
inductive RelayError where
  /-- The queue of batches takes no more. -/
  | workerShutdown
  /-- A directory that is to be watched is none, or one that is to be left is not watched. -/
  | directoryNotFound (path : String)
  | alreadyWatching (path : String)
  | invalidPattern (pattern : String) (flaw : Pattern.Flaw)
  /-- The content of a file was asked for as text and is none. -/
  | notText (path : String)
  | io (fault : Fault)
  | serialization (flaw : Json.Flaw)
  deriving DecidableEq, Repr

namespace RelayError

/-- The wording of a fault. For a text that could not be read only its kind is fixed. -/
def message : RelayError → String
  | .workerShutdown => "file events worker has been shut down"
  | .directoryNotFound p => "directory not found: " ++ p
  | .alreadyWatching p => "already watching: " ++ p
  | .invalidPattern pattern flaw => "invalid metadata pattern " ++ pattern ++ ": " ++ flaw.message
  | .notText p => "file is not valid utf-8 text: " ++ p
  | .io f => "io error: " ++ f.message
  | .serialization _ => "serialization error"

end RelayError
end ChangeRelay
