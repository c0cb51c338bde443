/-
Where a path leads. The steps of a path are taken one by one from the working directory or the
root; a link on the way is replaced by the steps of its target, and so is one at the end when links
are followed. At most forty links are followed for one path, so a loop of links ends in a fault.
-/
import ChangeRelay.Disk.Basic

namespace ChangeRelay

namespace Path

/-- Whether the path ends in a separator. -/
def endsInSeparator (p : Path) : Bool := p.bytes.getLast? == some separator

/-- The steps of a path, `.` and `..` among them. A separator at the end asks for a directory, as
a last `.` does. -/
def steps (p : Path) : List Name :=
  let named := (segments p.bytes).filter (· ≠ [])
  if named ≠ [] ∧ p.endsInSeparator then named ++ [[dot]] else named

/-- The steps of a path but the last, and the last; separators at the end have no part. -/
def splitLast? (p : Path) : Option (List Name × Name) :=
  let named := (segments p.bytes).filter (· ≠ [])
  named.getLast?.map fun s => (named.dropLast, s)

/-- The steps to the directory in which the last step of a path is taken. -/
def stepsAbove (p : Path) : List Name := ((p.splitLast?.map (·.1)).getD []) ++ [[dot]]

end Path

namespace Disk

/-- Longest name of an entry, in bytes. -/
def maxName : Nat := 255

/-- Longest path, in bytes. -/
def maxPath : Nat := 4095

/-- Number of links that are followed for one path. -/
def maxLinks : Nat := 40

/-- What is done at the last step of a path. -/
inductive LastStep where
  /-- A link is followed, and something has to be there. -/
  | follow
  /-- A link is not followed. -/
  | keep
  /-- A link is followed, and nothing needs to be there yet; but no directory can be made so, and a
  link whose target ends in a separator asks for one. -/
  | make
  deriving DecidableEq, Repr

/-- A place on the disk, and what stands there. -/
abbrev Place := Location × Option Node

/-- Takes the steps of a path from a directory. A link that has to be followed is handed to `jump`
with the directory its target starts from and all steps still to take. -/
def descend (d : Disk) (last : LastStep) (jump : Location → List Name → Except Fault Place) :
    Location → List Name → Except Fault Place
  | here, [] => .ok (here, some .directory)
  | here, s :: rest =>
    if s = [Path.dot] then descend d last jump here rest
    else if s = [Path.dot, Path.dot] then descend d last jump here.dropLast rest
    else if maxName < s.length then .error .nameTooLong
    else
      match d.lookup (here ++ [s]) with
      | none => if rest = [] ∧ last = .make then .ok (here ++ [s], none) else .error .notFound
      | some .directory => descend d last jump (here ++ [s]) rest
      | some (.file content) =>
        if rest = [] then .ok (here ++ [s], some (.file content)) else .error .notDirectory
      | some (.link target) =>
        if rest = [] ∧ last = .keep then .ok (here ++ [s], some (.link target))
        else if target.bytes = [] then .error .notFound
        else
          let start := if target.isAbsolute then [] else here
          if rest = [] ∧ last = .make ∧ target.endsInSeparator then
            match jump start target.stepsAbove with
            | .error f => .error f
            | .ok _ => .error .isDirectory
          else jump start (target.steps ++ rest)

/-- Takes the steps of a path, following at most `links` links. -/
def resolveFrom (d : Disk) (last : LastStep) : Nat → Location → List Name → Except Fault Place
  | 0 => descend d last fun _ _ => .error .tooManyLinks
  | links + 1 => descend d last fun here steps => resolveFrom d last links here steps

/-- The directory that the steps of a path start from. -/
def origin (d : Disk) (p : Path) : Location := if p.isAbsolute then [] else d.workingDirectory

/-- Why the bytes of a path are none that could lead anywhere. -/
def unfit? (p : Path) : Option Fault :=
  if p.bytes.contains 0 then some .zeroByte
  else if p.bytes = [] then some .notFound
  else if maxPath < p.bytes.length then some .nameTooLong
  else none

/-- The place that a path leads to. -/
def resolve (d : Disk) (last : LastStep) (p : Path) : Except Fault Place :=
  match unfit? p with
  | some f => .error f
  | none => resolveFrom d last maxLinks (d.origin p) p.steps

/-- Whether a path leads to a directory, links followed. -/
def isDirectory (d : Disk) (p : Path) : Bool :=
  match d.resolve .follow p with
  | .ok (_, some .directory) => true
  | _ => false

/-- Whether a path leads to anything, links followed. -/
def leadsSomewhere (d : Disk) (p : Path) : Bool :=
  match d.resolve .follow p with
  | .ok _ => true
  | .error _ => false

/-- The content of the file that a path leads to. -/
def read (d : Disk) (p : Path) : Except Fault (List UInt8) :=
  match d.resolve .follow p with
  | .error f => .error f
  | .ok (_, some (.file content)) => .ok content
  | .ok (_, some .directory) => .error .isDirectory
  | .ok (_, _) => .error .notFound

end Disk
end ChangeRelay
