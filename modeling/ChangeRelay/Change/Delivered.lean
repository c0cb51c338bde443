/-
Changes as they are delivered: a kind of change to a file of a module, the file being named by its
path relative to the content root, with a handle to its content that is read only when asked.
-/
import ChangeRelay.Change.Kind
import ChangeRelay.Error
import ChangeRelay.Host.Module

namespace ChangeRelay

/-- A handle to the content of a file. -/
structure Content where
  path : Path
  isBinary : Bool
  deriving DecidableEq, Repr

namespace Content

/-- The content of an entry. -/
def ofEntry (e : Entry) : Content := ⟨e.path, e.isBinary⟩

/-- The bytes of the file, as it is on the disk. -/
def bytes (d : Disk) (c : Content) : Except RelayError (List UInt8) :=
  match d.read c.path with
  | .ok bs => .ok bs
  | .error f => .error (.io f)

/-- The text of the file, as it is on the disk. -/
def text (d : Disk) (c : Content) : Except RelayError String :=
  match c.bytes d with
  | .error e => .error e
  | .ok bs =>
    match Utf8.decode? bs with
    | some s => .ok s
    | none => .error (.notText c.path.display)

end Content

/-- A change to a file of a module. -/
structure Change where
  module : SourceModule
  kind : ChangeKind
  /-- The path of the file relative to the content root of the module. -/
  relative : String
  content : Content
  deriving DecidableEq, Repr

namespace Change

/-- The change of a kind to an entry, unless the entry is the content root or lies outside it. -/
def ofEntry? (m : SourceModule) (e : Entry) (k : ChangeKind) : Option Change :=
  (e.path.relativeTo? m.contentRoot).map fun r => ⟨m, k, r, .ofEntry e⟩

/-- The path of the file. -/
def path (c : Change) : Path := c.content.path

end Change
end ChangeRelay
