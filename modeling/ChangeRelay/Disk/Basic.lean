/-
A file tree as a value. Every node has a location, the names that lead to it from the root of the
file system; the directories on the way to the working directory are always there. Every value of
the type stands for a tree: of two nodes at one location the first counts, and a node below
something that is no directory is never reached. The names in a directory are listed with the one
made last in front, each once.
-/
import ChangeRelay.Disk.Fault
import ChangeRelay.Path

namespace ChangeRelay

/-- The name of an entry in its directory. -/
abbrev Name := List UInt8

/-- The names that lead to a node from the root of the file system, outermost first. -/
abbrev Location := List Name

/-- What stands at a location. -/
inductive Node where
  | directory
  | file (content : List UInt8)
  /-- A symbolic link, with its target as it was written. -/
  | link (target : Path)
  deriving DecidableEq, Repr

/-- A file tree, with the directory that relative paths start from. -/
structure Disk where
  workingDirectory : Location
  nodes : List (Location × Node)
  deriving Repr

namespace Disk

/-- A file tree with nothing in its working directory. -/
def empty (workingDirectory : Location) : Disk := ⟨workingDirectory, []⟩

/-- What stands at a location, if anything does. -/
def lookup (d : Disk) (l : Location) : Option Node :=
  if l.isPrefixOf d.workingDirectory then some .directory
  else (d.nodes.find? fun e => e.1 == l).map (·.2)

/-- The name that a location has in a directory, if it lies directly in it. -/
def nameIn? : Location → Location → Option Name
  | [], [n] => some n
  | a :: dir, b :: l => if a = b then nameIn? dir l else none
  | _, _ => none

/-- The step from a directory towards a location below it. -/
def stepTowards? : Location → Location → Option Name
  | [], n :: _ => some n
  | a :: dir, b :: l => if a = b then stepTowards? dir l else none
  | _, [] => none

/-- The names in a directory. -/
def names (d : Disk) (dir : Location) : List Name :=
  (d.nodes.filterMap (fun e => nameIn? dir e.1)
    ++ (stepTowards? dir d.workingDirectory).toList).eraseDups

/-- Puts a node at a location, in place of what stood there. -/
def set (d : Disk) (l : Location) (node : Node) : Disk :=
  if d.nodes.any fun e => e.1 == l then
    { d with nodes := d.nodes.map fun e => if e.1 == l then (l, node) else e }
  else { d with nodes := (l, node) :: d.nodes }

/-- Removes a location and all below it. -/
def erase (d : Disk) (l : Location) : Disk :=
  { d with nodes := d.nodes.filter fun e => !l.isPrefixOf e.1 }

end Disk
end ChangeRelay
