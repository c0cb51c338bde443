/-
What happens on a disk when it is changed, entry by entry and in order: a change that makes the
directories on the way makes the outermost first, one that removes a directory removes what is in
it first, and to write over a file is to empty it and to fill it.
-/
import ChangeRelay.Disk.Edit

namespace ChangeRelay

/-- What happens to one entry of a disk. -/
inductive Occurrence where
  | made (l : Location) (isDirectory : Bool)
  /-- The content of a file is changed. -/
  | filled (l : Location)
  /-- A file is emptied and then filled again. -/
  | refilled (l : Location)
  | removed (l : Location) (isDirectory : Bool)
  | moved (source target : Location) (isDirectory : Bool)
  deriving DecidableEq, Repr

namespace Disk

/-- The location that a path leads to. -/
def locate? (d : Disk) (last : LastStep) (p : Path) : Option Location :=
  match d.resolve last p with
  | .ok place => some place.1
  | .error _ => none

/-- Whether a directory stands at a location. -/
def hasDirectoryAt (d : Disk) (l : Location) : Bool := d.lookup l == some .directory

/-- The entries that are new on a disk, the one made first in front. -/
def madeSince (before after : Disk) : List Occurrence :=
  (after.nodes.filter fun e => (before.lookup e.1).isNone).reverse.map fun e =>
    .made e.1 (e.2 == .directory)

/-- The removal of all that is in a directory, at most `levels` deep. -/
def removalsBelow (d : Disk) : (levels : Nat) → Location → List Occurrence
  | 0, _ => []
  | levels + 1, l =>
    (d.names l).flatMap fun n =>
      removalsBelow d levels (l ++ [n]) ++ [.removed (l ++ [n]) (d.hasDirectoryAt (l ++ [n]))]

/-- The removal of an entry and of all below it. -/
def removals (d : Disk) (l : Location) : List Occurrence :=
  d.removalsBelow d.nodes.length l ++ [.removed l (d.hasDirectoryAt l)]

end Disk

/-- What happens to the content of a file that is written; it may have been there before. -/
def Occurrence.ofWriting (wasThere : Bool) (content : List UInt8) (l : Location) :
    List Occurrence :=
  match wasThere, content.isEmpty with
  | false, true => []
  | false, false | true, true => [.filled l]
  | true, false => [.refilled l]

/-- What happens in a change from one disk to another. An entry that is moved to where it is stays
there, and nothing happens. -/
def Edit.occurrences (before after : Disk) : Edit → List Occurrence
  | .write p content =>
    match after.locate? .follow p with
    | some l =>
      Disk.madeSince before after ++ Occurrence.ofWriting (before.lookup l).isSome content l
    | none => []
  | .append p content =>
    match after.locate? .follow p with
    | some l => Disk.madeSince before after ++ if content.isEmpty then [] else [.filled l]
    | none => []
  | .makeDirectory _ => Disk.madeSince before after
  | .remove p =>
    match before.locate? .keep p with
    | some l => before.removals l
    | none => []
  | .rename p q =>
    match before.locate? .keep p, before.placeToMove q with
    | some l, .ok m => if l = m then [] else [.moved l m (before.hasDirectoryAt l)]
    | _, _ => []

end ChangeRelay
