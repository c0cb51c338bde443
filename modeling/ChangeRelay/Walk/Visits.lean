/-
Walks over a file tree. A walk from a path visits what the path leads to and all below it, a
directory before the entries in it, and each entry under the path that the walk took to it. Links
are visited as files unless they are followed. A link that is followed and leads to one of the
directories that the walk is in would lead round for ever: it is visited as unreadable, as is a
link that leads nowhere. Paths grow longer on the way down; a directory whose path has grown too
long to lead to it is visited, and then visited as unreadable in place of its entries.

A walk goes down at most as many levels as it is allowed, and on any file tree no deeper than
`Disk.deepest`: links that are followed lead to ever other directories, and between two of them the
walk goes down one branch of the tree.
-/
import ChangeRelay.Entry

namespace ChangeRelay

/-- What a walk meets. -/
inductive Visit where
  /-- An entry as the walk sees it: a link that is not followed is no directory. -/
  | entry (e : Entry)
  /-- A path that cannot be looked at or read, or a link that leads back. -/
  | unreadable (p : Path)
  deriving DecidableEq, Repr

/-- How a walk goes. -/
structure WalkRules where
  followLinks : Bool
  /-- How many levels below its start the walk goes, if it is limited. -/
  maxDepth : Option UInt64
  deriving DecidableEq, Repr

namespace Disk

/-- What a walk meets at an entry of a directory and below it. It came to the entry by `p`, through
the directories `within`; `below` walks the entries of a directory. -/
def walkEntry (d : Disk) (followLinks : Bool)
    (below : Path → Location → List Location → List Visit)
    (p : Path) (here : Location) (within : List Location) : List Visit :=
  match d.lookup here with
  | none => []
  | some .directory => .entry (.directory p) :: below p here (here :: within)
  | some (.file _) => [.entry (.file p)]
  | some (.link _) =>
    if followLinks then
      match d.resolve .follow p with
      | .ok (l, some .directory) =>
        if l ∈ within then [.unreadable p] else .entry (.directory p) :: below p l (l :: within)
      | .ok _ => [.entry (.file p)]
      | .error _ => [.unreadable p]
    else [.entry (.file p)]

/-- What a walk meets in the directory `here`, to which it came by `p`, and below it, `levels`
deep; `within` are the directories that it is in, `here` among them. -/
def walkBelow (d : Disk) (followLinks : Bool) :
    (levels : Nat) → (p : Path) → (here : Location) → (within : List Location) → List Visit
  | 0, _, _, _ => []
  | levels + 1, p, here, within =>
    if d.isDirectory p then
      (d.names here).flatMap fun n =>
        d.walkEntry followLinks (walkBelow d followLinks levels) (p.child n) (here ++ [n]) within
    else [.unreadable p]

/-- A bound for the number of levels that a walk goes down. -/
def deepest (d : Disk) : Nat := Nat.pow (d.nodes.length + d.workingDirectory.length + 2) 2

/-- The number of levels that a walk may go down. -/
def levels (d : Disk) (r : WalkRules) : Nat :=
  match r.maxDepth with
  | none => d.deepest
  | some depth => min depth.toNat d.deepest

/-- What a walk from a path meets, in the order in which it does. A link at the start is always
followed, though the start itself is visited as a file if links are not. -/
def walk (d : Disk) (r : WalkRules) (p : Path) : List Visit :=
  match d.resolve .keep p with
  | .error _ => [.unreadable p]
  | .ok (l, some .directory) =>
    .entry (.directory p) :: d.walkBelow r.followLinks (d.levels r) p l [l]
  | .ok (_, some (.link _)) =>
    match d.resolve .follow p with
    | .error _ => [.unreadable p]
    | .ok (l, some .directory) =>
      .entry ⟨p, r.followLinks⟩ :: d.walkBelow r.followLinks (d.levels r) p l [l]
    | .ok _ => [.entry (.file p)]
  | .ok _ => [.entry (.file p)]

end Disk
end ChangeRelay
