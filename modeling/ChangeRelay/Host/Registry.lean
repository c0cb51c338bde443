/-
A registry of projects, kept in memory. Projects stand in the order in which they were opened. A
disposed project stays registered with its modules and its engine, and is revived in its place when
it is opened again; a closed one is forgotten.
-/
import ChangeRelay.Host.Basic
import ChangeRelay.Settings.Metadata

namespace ChangeRelay

/-- What is known of a registered project. -/
structure Project where
  modules : List SourceModule
  engine : Option Engine
  disposed : Bool
  deriving DecidableEq, Repr

/-- A project that has just been opened. -/
def Project.fresh : Project := ⟨[], none, false⟩

/-- The registered projects, in the order in which they were opened. -/
structure Registry where
  metadata : MetadataRules
  projects : List (ProjectId × Project)
  deriving Repr

namespace Registry

/-- A registry without projects. -/
def empty (metadata : MetadataRules) : Registry := ⟨metadata, []⟩

/-- What is known of a project, if it is registered. -/
def get? (r : Registry) (p : ProjectId) : Option Project :=
  (r.projects.find? fun e => e.1 == p).map (·.2)

/-- Changes what is known of a project, if it is registered. -/
def update (r : Registry) (p : ProjectId) (f : Project → Project) : Registry :=
  { r with projects := r.projects.map fun e => if e.1 == p then (e.1, f e.2) else e }

/-! ## Operations -/

/-- Opens a project; one that was disposed is revived. -/
def openProject (r : Registry) (p : ProjectId) : Registry :=
  if (r.get? p).isSome then r.update p fun s => { s with disposed := false }
  else { r with projects := r.projects ++ [(p, .fresh)] }

/-- Marks a project as disposed. -/
def dispose (r : Registry) (p : ProjectId) : Registry :=
  r.update p fun s => { s with disposed := true }

/-- Forgets a project. -/
def close (r : Registry) (p : ProjectId) : Registry :=
  { r with projects := r.projects.filter fun e => !(e.1 == p) }

/-- Adds a module to a project, if the project is registered. -/
def addModule (r : Registry) (p : ProjectId) (id : ModuleId) (contentRoot : Path) :
    Option SourceModule × Registry :=
  if (r.get? p).isSome then
    let m : SourceModule := ⟨id, p, contentRoot⟩
    (some m, r.update p fun s => { s with modules := s.modules ++ [m] })
  else (none, r)

/-- Starts an engine for a project, if the project is registered. -/
def startEngine (r : Registry) (p : ProjectId) (e : Engine) : Bool × Registry :=
  if (r.get? p).isSome then (true, r.update p fun s => { s with engine := some e })
  else (false, r)

/-- Stops the engine of a project. -/
def stopEngine (r : Registry) (p : ProjectId) : Registry :=
  r.update p fun s => { s with engine := none }

/-! ## Answers -/

/-- The projects that are open. -/
def openProjects (r : Registry) : List ProjectId :=
  (r.projects.filter fun e => !e.2.disposed).map (·.1)

/-- Whether a project is disposed or not registered. -/
def isDisposed (r : Registry) (p : ProjectId) : Bool :=
  match r.get? p with
  | none => true
  | some s => s.disposed

/-- The module with the deepest content root; of equally deep ones the last. -/
def deepest? : List SourceModule → Option SourceModule
  | [] => none
  | m :: ms =>
    match deepest? ms with
    | none => some m
    | some n => if n.depth < m.depth then some m else some n

/-- The module of a project that owns a path: the one with the deepest content root. -/
def findModule (r : Registry) (p : ProjectId) (path : Path) : Option SourceModule :=
  match r.get? p with
  | none => none
  | some s => deepest? (s.modules.filter (·.contains path))

/-- The engine of a project that is open. -/
def engineIfStarted (r : Registry) (p : ProjectId) : Option Engine :=
  match r.get? p with
  | none => none
  | some s => if s.disposed then none else s.engine

/-- Whether a path is that of metadata. -/
def isMetadata (r : Registry) (path : Path) : Bool := r.metadata.covers path

/-- The registry as a host: it answers from its state and stays as it is. -/
def host : Host Registry where
  openProjects := do return (← get).openProjects
  isDisposed p := do return (← get).isDisposed p
  findModule p e := do return (← get).findModule p e.path
  engineIfStarted p := do return (← get).engineIfStarted p
  isMetadata e := do return (← get).isMetadata e.path

end Registry
end ChangeRelay
