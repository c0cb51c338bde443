/-
Projects, the modules in them and the engines that analyse them. A module owns the files below its
content root; two modules are the same when they have the same name in the same project and the
same root, by components.
-/
import ChangeRelay.Entry
import ChangeRelay.Json.Reader
import ChangeRelay.Json.Value
import ChangeRelay.Text.Quoted

namespace ChangeRelay

open Json (Document Answer Value RecordField)

/-- The name of a project. -/
structure ProjectId where
  text : String
  deriving DecidableEq, Repr, Inhabited

/-- The name of a module in its project. -/
structure ModuleId where
  text : String
  deriving DecidableEq, Repr, Inhabited

/-- A group of source files within a project: those below a directory. -/
structure SourceModule where
  id : ModuleId
  project : ProjectId
  contentRoot : Path
  deriving DecidableEq, Repr, Inhabited

/-- An engine that has been started for a project. -/
structure Engine where
  name : String
  deriving DecidableEq, Repr, Inhabited

/-- The engine in diagnostics. -/
def Engine.diagnostic (e : Engine) : String :=
  "EngineHandle \x7b engine: " ++ Text.quote e.name ++ " \x7d"

namespace SourceModule

/-- Two modules are the same when their names, their projects and their roots are. -/
def Same (m n : SourceModule) : Prop :=
  m.id = n.id ∧ m.project = n.project ∧ m.contentRoot.Same n.contentRoot

instance (m n : SourceModule) : Decidable (Same m n) :=
  inferInstanceAs (Decidable (_ ∧ _ ∧ _))

/-- Whether a path is the content root or lies below it. -/
def contains (m : SourceModule) (p : Path) : Bool := p.startsWith m.contentRoot

/-- The module in diagnostics. -/
def display (m : SourceModule) : String := m.project.text ++ "/" ++ m.id.text

/-- The number of steps to the content root. -/
def depth (m : SourceModule) : Nat := m.contentRoot.components.length

end SourceModule

/-! ## Written forms -/

/-- A path as a value; one that is no text has no written form. -/
def Path.toValue? (p : Path) : Option Value := p.text?.map .text

/-- Reads a path. -/
def Path.read (d : Document) : Answer Path := d.readText.map Path.ofText

namespace Entry

/-- An entry as a value, if its path is text. -/
def toValue? (e : Entry) : Option Value :=
  e.path.toValue?.map fun p => .object [("path", p), ("is_directory", .flag e.isDirectory)]

/-- The fields of an entry, in their order. -/
def fields : List (RecordField (Option Path × Option Bool)) := [
  { name := "path"
    isGiven := fun g => g.1.isSome
    read := fun d g => do
      let p ← Path.read d
      pure (some p, g.2) },
  { name := "is_directory"
    isGiven := fun g => g.2.isSome
    read := fun d g => do
      let b ← d.readFlag
      pure (g.1, some b) }]

/-- Reads an entry. -/
def read (d : Document) : Answer Entry := do
  let g ← d.readRecord fields (none, none)
  let p ← Document.required g.1
  let b ← Document.required g.2
  pure ⟨p, b⟩

end Entry

/-- A project's name as a value. -/
def ProjectId.toValue (p : ProjectId) : Value := .text p.text

/-- Reads a project's name. -/
def ProjectId.read (d : Document) : Answer ProjectId := d.readText.map .mk

/-- A module's name as a value. -/
def ModuleId.toValue (m : ModuleId) : Value := .text m.text

/-- Reads a module's name. -/
def ModuleId.read (d : Document) : Answer ModuleId := d.readText.map .mk

namespace SourceModule

/-- A module as a value, if its root is text. -/
def toValue? (m : SourceModule) : Option Value :=
  m.contentRoot.toValue?.map fun r =>
    .object [("id", m.id.toValue), ("project", m.project.toValue), ("content_root", r)]

/-- A module of which some fields have been given. -/
structure Given where
  id : Option ModuleId
  project : Option ProjectId
  contentRoot : Option Path

/-- The fields of a module, in their order. -/
def fields : List (RecordField Given) := [
  { name := "id"
    isGiven := fun g => g.id.isSome
    read := fun d g => do
      let i ← ModuleId.read d
      pure { g with id := some i } },
  { name := "project"
    isGiven := fun g => g.project.isSome
    read := fun d g => do
      let p ← ProjectId.read d
      pure { g with project := some p } },
  { name := "content_root"
    isGiven := fun g => g.contentRoot.isSome
    read := fun d g => do
      let r ← Path.read d
      pure { g with contentRoot := some r } }]

/-- Reads a module. -/
def read (d : Document) : Answer SourceModule := do
  let g ← d.readRecord fields ⟨none, none, none⟩
  let i ← Document.required g.id
  let p ← Document.required g.project
  let r ← Document.required g.contentRoot
  pure ⟨i, p, r⟩

end SourceModule
end ChangeRelay
