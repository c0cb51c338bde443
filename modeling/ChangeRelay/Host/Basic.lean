/-
The host of a relay: what it is asked about projects, modules, engines and metadata. A host answers
from a state of its own, which a question may change; so the same question may be answered
differently the next time, and how often a host was asked can be told from its state.
-/
import ChangeRelay.Host.Module

namespace ChangeRelay

/-- A host, as its answers to the questions of the relay. -/
structure Host (σ : Type) where
  /-- The open projects, in a fixed order. -/
  openProjects : StateM σ (List ProjectId)
  /-- Whether a project has been closed or is about to be. -/
  isDisposed : ProjectId → StateM σ Bool
  /-- The module of a project that owns an entry. -/
  findModule : ProjectId → Entry → StateM σ (Option SourceModule)
  /-- The engine that is started for a project. -/
  engineIfStarted : ProjectId → StateM σ (Option Engine)
  /-- Whether an entry is metadata of a project or an editor. -/
  isMetadata : Entry → StateM σ Bool

namespace Host

variable {σ : Type}

/-- The module that owns an entry. The projects are asked in their order, and the first that is
not disposed and claims the entry has it; no project after it is asked. -/
def owner? (h : Host σ) (e : Entry) : List ProjectId → StateM σ (Option SourceModule)
  | [] => pure none
  | p :: ps => do
    if ← h.isDisposed p then owner? h e ps
    else
      match ← h.findModule p e with
      | some m => pure (some m)
      | none => owner? h e ps

end Host
end ChangeRelay
