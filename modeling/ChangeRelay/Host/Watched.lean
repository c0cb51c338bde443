/-
A registry under watch: it counts the questions about disposal and about metadata, may lose a
project at a chosen question, and may claim every entry of a project for one module.
-/
import ChangeRelay.Host.Registry

namespace ChangeRelay

/-- A registry with counts of the questions it was asked, and a script for its answers. -/
structure WatchedRegistry where
  registry : Registry
  /-- How often it was asked whether a project is disposed. -/
  checks : Nat
  /-- How often it was asked whether an entry is metadata. -/
  lookups : Nat
  /-- From this question about disposal on, the project is disposed before each answer. -/
  closing : Option (Nat × ProjectId)
  /-- The module that claims every entry of its project. -/
  claim : Option SourceModule

namespace WatchedRegistry

/-- A registry under watch that answers as the registry does. -/
def plain (r : Registry) : WatchedRegistry := ⟨r, 0, 0, none, none⟩

/-- One more question about disposal has been asked. -/
def countCheck (w : WatchedRegistry) : WatchedRegistry :=
  let checks := w.checks + 1
  match w.closing with
  | none => { w with checks := checks }
  | some (n, p) =>
    if n ≤ checks then { w with checks := checks, registry := w.registry.dispose p }
    else { w with checks := checks }

/-- One more question about metadata has been asked. -/
def countLookup (w : WatchedRegistry) : WatchedRegistry := { w with lookups := w.lookups + 1 }

/-- The module of a project that owns a path. -/
def findModule (w : WatchedRegistry) (p : ProjectId) (path : Path) : Option SourceModule :=
  match w.claim with
  | some m => if m.project = p then some m else w.registry.findModule p path
  | none => w.registry.findModule p path

/-- The registry under watch as a host. -/
def host : Host WatchedRegistry where
  openProjects := do return (← get).registry.openProjects
  isDisposed p := do
    modify countCheck
    return (← get).registry.isDisposed p
  findModule p e := do return (← get).findModule p e.path
  engineIfStarted p := do return (← get).registry.engineIfStarted p
  isMetadata e := do
    modify countLookup
    return (← get).registry.isMetadata e.path

end WatchedRegistry
end ChangeRelay
