/-
Coverage: where changes are noticed. A mark stands on a directory, or on a single file, and goes
with it: to rename what it stands on moves it, to remove that takes it away. What is noticed by a
mark is reported under the path by which its place was covered last, wherever that place has come
to lie.

To cover a directory is to mark it and all directories below it, links followed. Every path that has
been covered claims a mark, and several paths may claim the same. To give up any of them takes the
mark off, and with it every mark that is reported under a path below; a path whose mark has gone
already is given up alone.
-/
import ChangeRelay.Walk.Visits

namespace ChangeRelay

/-- A place in which changes are noticed. -/
structure Mark where
  id : Nat
  location : Location
  /-- The path that changes are reported under. -/
  path : Path
  /-- Whether it is noticed that the place itself is moved or removed. -/
  itself : Bool
  deriving DecidableEq, Repr

/-- A path that has been covered, with the mark that was put where it led. -/
structure Claim where
  path : Path
  mark : Nat
  /-- Whether the place itself was to be noticed. -/
  itself : Bool
  isDirectory : Bool
  deriving DecidableEq, Repr

/-- The places in which changes are noticed, and the paths that they were covered by. -/
structure Coverage where
  marks : List Mark
  claims : List Claim
  /-- The next mark that is new. -/
  nextMark : Nat
  deriving DecidableEq, Repr

namespace Coverage

/-- No place. -/
def empty : Coverage := ⟨[], [], 0⟩

/-- The claim of a path. -/
def claimAt? (c : Coverage) (p : Path) : Option Claim :=
  c.claims.find? fun k => decide (k.path.Same p)

/-- The mark on a location. -/
def markAt? (c : Coverage) (l : Location) : Option Mark := c.marks.find? fun m => m.location == l

/-- The path of a location in a marked directory. -/
def pathOf? (c : Coverage) (l : Location) : Option Path :=
  match l.getLast? with
  | none => none
  | some n => (c.markAt? l.dropLast).map fun m => m.path.child n

/-! ## Covering -/

/-- Puts a mark on the location that a path leads to. A mark that stands there already comes under
this path. Whether it notices the place itself is decided anew, unless the path has been covered
before: then it does not stop to do so. -/
def mark (c : Coverage) (l : Location) (p : Path) (isDirectory itself : Bool) : Coverage :=
  let claimed? := c.claimAt? p
  let itself := itself || claimed?.any (·.itself)
  let standing? := c.markAt? l
  let id := (standing?.map (·.id)).getD c.nextMark
  let noticed := itself || (claimed?.isSome && standing?.any (·.itself))
  { marks := c.marks.filter (fun m => m.id ≠ id) ++ [⟨id, l, p, noticed⟩]
    claims := c.claims.filter (fun k => !decide (k.path.Same p)) ++ [⟨p, id, itself, isDirectory⟩]
    nextMark := max c.nextMark (id + 1) }

/-- The directory that a walk meets. -/
def directoryAt? (d : Disk) : Visit → Option (Location × Path)
  | .entry e =>
    match e.isDirectory, d.resolve .follow e.path with
    | true, .ok (l, some .directory) => some (l, e.path)
    | _, _ => none
  | .unreadable _ => none

/-- The directories at a path and below it. -/
def directoriesFrom (d : Disk) (p : Path) : List (Location × Path) :=
  (d.walk ⟨true, none⟩ p).filterMap (directoryAt? d)

/-- Covers what a path leads to: a file alone, or a directory and all below it. -/
def cover (c : Coverage) (d : Disk) (p : Path) (itself : Bool) : Coverage :=
  match d.resolve .follow p with
  | .ok (_, some .directory) =>
    (directoriesFrom d p).foldl (fun c e => c.mark e.1 e.2 true (itself && e.2 == p)) c
  | .ok (l, _) => c.mark l p false true
  | .error _ => c

/-! ## Giving up -/

/-- Gives up a path that has been covered. -/
def release (c : Coverage) (p : Path) : Coverage :=
  match c.claimAt? p with
  | none => c
  | some claim =>
    let others := c.claims.filter fun k => !decide (k.path.Same p)
    if c.marks.any fun m => m.id == claim.mark then
      let rest := c.marks.filter fun m => m.id ≠ claim.mark
      let below := rest.filter fun m => m.path.startsWith p
      { c with
        marks := rest.filter fun m => !m.path.startsWith p
        claims := others.filter fun k => !below.any fun m => decide (m.path.Same k.path) }
    else { c with claims := others }

end Coverage
end ChangeRelay
