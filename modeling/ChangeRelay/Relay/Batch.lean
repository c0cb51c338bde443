/-
Batches: changes grouped by module. The groups stand in the order in which their modules came
first, and there is one for all modules that are the same; it is filed under the first of them.
-/
import ChangeRelay.Change.Delivered

namespace ChangeRelay

/-- Changes grouped by module. -/
structure Batch where
  groups : List (SourceModule × List Change)
  deriving DecidableEq, Repr

namespace Batch

/-- Without changes. -/
def empty : Batch := ⟨[]⟩

/-- Changes the group of a module, which is made from nothing if it is new. -/
def alter (m : SourceModule) (f : List Change → List Change) :
    List (SourceModule × List Change) → List (SourceModule × List Change)
  | [] => [(m, f [])]
  | (n, cs) :: gs => if n.Same m then (n, f cs) :: gs else (n, cs) :: alter m f gs

/-- Adds a change at the end of the group of a module. -/
def add (b : Batch) (m : SourceModule) (c : Change) : Batch := ⟨alter m (· ++ [c]) b.groups⟩

/-- Sets the group of a module. -/
def insert (b : Batch) (m : SourceModule) (cs : List Change) : Batch :=
  ⟨alter m (fun _ => cs) b.groups⟩

/-- The number of changes in a batch. -/
def size (b : Batch) : Nat := (b.groups.flatMap (·.2)).length

end Batch
end ChangeRelay
