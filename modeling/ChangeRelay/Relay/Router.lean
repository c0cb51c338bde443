/-
Routing: each group of a batch goes to the engine of its project. The engines are those that were
started when the router was made; what has been gathered for a project is sent to its engine even
if the project is disposed in between. A group without an engine is dropped.
-/
import ChangeRelay.Host.Basic
import ChangeRelay.Relay.Batch

namespace ChangeRelay

/-- A call of an engine: the changes to one module, in order. -/
structure Call where
  engine : Engine
  module : SourceModule
  changes : List Change
  deriving DecidableEq, Repr

/-- The engines of projects; of two for one project the first counts. -/
structure Router where
  engines : List (ProjectId × Engine)
  deriving DecidableEq, Repr

/-- What became of a batch. -/
structure Dispatch where
  calls : List Call
  /-- The number of modules whose changes were sent. -/
  dispatched : Nat
  /-- The number of modules whose changes were dropped. -/
  dropped : Nat
  deriving DecidableEq, Repr

namespace Router

variable {σ : Type}

/-- The router without engines. -/
def empty : Router := ⟨[]⟩

/-- Adds an engine, which from now on counts for its project. -/
def insert (r : Router) (p : ProjectId) (e : Engine) : Router := ⟨(p, e) :: r.engines⟩

/-- Adds the engines that are started for projects. -/
def capture (h : Host σ) : List ProjectId → Router → StateM σ Router
  | [], r => pure r
  | p :: ps, r => do
    match ← h.engineIfStarted p with
    | some e => capture h ps (r.insert p e)
    | none => capture h ps r

/-- The router to the engines that are started for projects. -/
def ofProjects (h : Host σ) (ps : List ProjectId) : StateM σ Router := capture h ps .empty

/-- The engine of a project. -/
def engine? (r : Router) (p : ProjectId) : Option Engine :=
  (r.engines.find? fun e => e.1 == p).map (·.2)

/-- Sends each group to its engine, in the order of the groups. -/
def dispatchGroups (r : Router) : List (SourceModule × List Change) → Dispatch
  | [] => ⟨[], 0, 0⟩
  | (m, cs) :: gs =>
    let rest := dispatchGroups r gs
    match r.engine? m.project with
    | some e => ⟨⟨e, m, cs⟩ :: rest.calls, rest.dispatched + 1, rest.dropped⟩
    | none => { rest with dropped := rest.dropped + 1 }

/-- Sends a batch. -/
def dispatch (r : Router) (b : Batch) : Dispatch := r.dispatchGroups b.groups

end Router
end ChangeRelay
