/-
Changes to a file tree: writing and appending to files, making directories and links, removing and
renaming. Except for a plain `write`, the directories on the way to what is made are made with it.
-/
import ChangeRelay.Disk.Resolve

namespace ChangeRelay

namespace Disk

/-- The place of a file that is about to be written: a new one needs its directory, and neither a
separator nor a `.` or `..` may stand at the end of its path. -/
def placeToWrite (d : Disk) (p : Path) : Except Fault Location :=
  match unfit? p with
  | some f => .error f
  | none =>
    if p.endsInSeparator then
      match d.resolveFrom .follow maxLinks (d.origin p) p.stepsAbove with
      | .error f => .error f
      | .ok _ => .error .isDirectory
    else
      match d.resolve .make p with
      | .error f => .error f
      | .ok (_, some .directory) => .error .isDirectory
      | .ok (l, _) => .ok l

/-- Sets the content of a file. -/
def write (d : Disk) (p : Path) (content : List UInt8) : Except Fault Disk :=
  (d.placeToWrite p).map fun l => d.set l (.file content)

/-- Makes the directories that the steps lead through, starting from a directory. -/
def makeSteps (d : Disk) : Location → List Name → Except Fault (Disk × Location)
  | here, [] => .ok (d, here)
  | here, s :: rest =>
    match d.resolveFrom .follow maxLinks here [s] with
    | .ok (l, some .directory) => makeSteps d l rest
    | .ok _ => .error .notDirectory
    | .error .notFound =>
      if (d.lookup (here ++ [s])).isNone then
        makeSteps (d.set (here ++ [s]) .directory) (here ++ [s]) rest
      else .error .notFound
    | .error f => .error f

/-- Makes a directory and those above it. -/
def makeDirectory (d : Disk) (p : Path) : Except Fault Disk :=
  (makeSteps d (d.origin p) p.steps).map (·.1)

/-- Makes the directory that an entry is to stand in. -/
def makeParent (d : Disk) (p : Path) : Except Fault (Disk × Location) :=
  makeSteps d (d.origin p) ((p.splitLast?.map (·.1)).getD [])

/-- Writes a file, with the directories above it. -/
def writeWithin (d : Disk) (p : Path) (content : List UInt8) : Except Fault Disk :=
  match d.makeParent p with
  | .error f => .error f
  | .ok (d', _) => d'.write p content

/-- Appends to a file, which is made if it is missing. -/
def append (d : Disk) (p : Path) (content : List UInt8) : Except Fault Disk :=
  match d.read p with
  | .ok before => d.write p (before ++ content)
  | .error .notFound => d.writeWithin p content
  | .error f => .error f

/-- Makes a symbolic link, with the directories above it. -/
def makeLink (d : Disk) (p target : Path) : Except Fault Disk :=
  match d.makeParent p, p.splitLast? with
  | .error f, _ => .error f
  | .ok (d', dir), some (_, s) => .ok (d'.set (dir ++ [s]) (.link target))
  | .ok _, none => .error .notFound

/-- Removes an entry; a directory goes with all below it, a link alone. -/
def remove (d : Disk) (p : Path) : Except Fault Disk :=
  (d.resolve .keep p).map fun place => d.erase place.1

/-- The location that `l` has once `source` and all below it has moved to `target`. -/
def movedLocation (source target l : Location) : Location :=
  if source.isPrefixOf l then target ++ l.drop source.length else l

/-- The location that an entry moves to when it is given a path. -/
def placeToMove (d : Disk) (target : Path) : Except Fault Location :=
  match target.splitLast? with
  | none => .error .notFound
  | some (above, s) =>
    match d.resolveFrom .follow maxLinks (d.origin target) above with
    | .error f => .error f
    | .ok (dir, some .directory) => .ok (dir ++ [s])
    | .ok _ => .error .notDirectory

/-- Moves an entry to another path, in place of what stood there. -/
def rename (d : Disk) (source target : Path) : Except Fault Disk :=
  match d.resolve .keep source, d.placeToMove target with
  | .error f, _ => .error f
  | _, .error f => .error f
  | .ok (l, _), .ok m =>
    if m = l then .ok d
    else
      let cleared := d.erase m
      .ok { cleared with nodes := cleared.nodes.map fun e => (movedLocation l m e.1, e.2) }

end Disk

/-! ## Changes as values -/

/-- A change to a file tree. -/
inductive Edit where
  | write (p : Path) (content : List UInt8)
  | append (p : Path) (content : List UInt8)
  | makeDirectory (p : Path)
  | remove (p : Path)
  | rename (source target : Path)
  deriving DecidableEq, Repr

/-- The file tree after a change. -/
def Edit.apply (d : Disk) : Edit → Except Fault Disk
  | .write p content => d.writeWithin p content
  | .append p content => d.append p content
  | .makeDirectory p => d.makeDirectory p
  | .remove p => d.remove p
  | .rename source target => d.rename source target

end ChangeRelay
