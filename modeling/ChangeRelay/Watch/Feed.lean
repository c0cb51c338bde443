/-
What is noticed of a change. What happens to an entry is noticed by the mark on its directory, under
the path of that directory, and then by the mark on the entry itself, if there is one. A rename is
noticed at both of its sides, and when both are marked also as a whole.

What is noticed decides what is covered from then on. An entry that is seen to go is given up under
the path that it had there, and a directory that is seen to come is covered under its new path; one
that is moved where no mark sees it keeps its mark, and its old path.
-/
import ChangeRelay.Change.Notice
import ChangeRelay.Disk.Occurrence
import ChangeRelay.Watch.Watcher

namespace ChangeRelay

namespace Coverage

/-! ## Notices -/

/-- The notice of a kind at a location, if its directory is marked. -/
def noticeAt (c : Coverage) (l : Location) (k : NoticeKind) : List Notice :=
  (c.pathOf? l).toList.map fun p => ⟨k, [p]⟩

/-- The path of a mark that notices the place itself. -/
def ownPath? (c : Coverage) (l : Location) : Option Path :=
  match c.markAt? l with
  | some m => if m.itself then some m.path else none
  | none => none

/-- The kind of the notice that a place itself has gone: of what sort it was is known by the claim
of its path. -/
def kindOfLoss (c : Coverage) (p : Path) : NoticeKind :=
  if (c.claimAt? p).any (·.isDirectory) then .removedDirectory else .removed

/-- The notice that a place itself has gone. -/
def noticeOfLoss (c : Coverage) (l : Location) : List Notice :=
  (c.ownPath? l).toList.map fun p => ⟨c.kindOfLoss p, [p]⟩

/-- The notices of a move at its two sides, and as a whole. -/
def noticesOfMove (c : Coverage) (source target : Location) : List Notice :=
  c.noticeAt source (.renamed .source) ++ c.noticeAt target (.renamed .target)
    ++ match c.pathOf? source, c.pathOf? target with
      | some p, some q => [⟨.renamed .both, [p, q]⟩]
      | _, _ => []

/-- The notices that the content of a file has changed. -/
def noticesOfFilling (c : Coverage) (l : Location) : List Notice :=
  c.noticeAt l .modified ++ (c.markAt? l).toList.map fun m => ⟨.modified, [m.path]⟩

/-- Whether a change of a file is noticed by two marks, on its directory and on itself. -/
def isTwiceMarked (c : Coverage) (l : Location) : Bool :=
  (c.pathOf? l).isSome && (c.markAt? l).isSome

/-- The notices of what happens to one entry. Two changes of a file in a row are one for a mark that
notices nothing else in between. -/
def notices (c : Coverage) : Occurrence → List Notice
  | .made l _ => c.noticeAt l .created
  | .filled l => c.noticesOfFilling l
  | .refilled l =>
    c.noticesOfFilling l ++ if c.isTwiceMarked l then c.noticesOfFilling l else []
  | .removed l isDirectory =>
    c.noticeAt l (if isDirectory then .removedDirectory else .removed) ++ c.noticeOfLoss l
  | .moved source target _ =>
    c.noticesOfMove source target
      ++ (c.ownPath? source).toList.map (fun p => ⟨.renamed .source, [p]⟩)
      ++ c.noticeOfLoss target

/-! ## Coverage after a change -/

/-- Where the marks are after something has happened to an entry. What a moved entry takes the
place of is gone. -/
def carried (marks : List Mark) : Occurrence → List Mark
  | .made _ _ | .filled _ | .refilled _ => marks
  | .removed l _ => marks.filter fun m => m.location ≠ l
  | .moved source target _ =>
    (marks.filter fun m => !target.isPrefixOf m.location).map fun m =>
      { m with location := Disk.movedLocation source target m.location }

/-- The paths that are given up because their entries are seen to go. -/
def pathsLost (c : Coverage) : Occurrence → List Path
  | .made _ _ | .filled _ | .refilled _ => []
  | .removed l _ => (c.pathOf? l).toList ++ (c.ownPath? l).toList
  | .moved source target _ => (c.pathOf? source).toList ++ (c.ownPath? target).toList

/-- The path of a directory that is seen to come, if the directory it comes into is covered under
its path. -/
def pathOfNew? (c : Coverage) (l : Location) : Option Path :=
  match c.markAt? l.dropLast with
  | some m => if (c.claimAt? m.path).any (·.isDirectory) then c.pathOf? l else none
  | none => none

/-- The paths that are covered because directories are seen to come. -/
def pathsGained (c : Coverage) : Occurrence → List Path
  | .made l true | .moved _ l true => (c.pathOfNew? l).toList
  | _ => []

/-- The coverage after a change. -/
def after (c : Coverage) (d : Disk) (happened : List Occurrence) : Coverage :=
  let moved := { c with marks := happened.foldl carried c.marks }
  let kept := (happened.flatMap c.pathsLost).foldl release moved
  (happened.flatMap c.pathsGained).foldl (fun c p => c.cover d p false) kept

end Coverage

/-- The watcher after a change, and what it noticed of it. -/
def Watcher.observe (w : Watcher) (before after : Disk) (e : Edit) : List Notice × Watcher :=
  let happened := e.occurrences before after
  (happened.flatMap w.coverage.notices, { w with coverage := w.coverage.after after happened })

end ChangeRelay
