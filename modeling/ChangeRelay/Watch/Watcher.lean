/-
The watcher: the directories that are to be watched, the roots, and whether they are. Roots may be
added and removed whether or not the watcher runs. While it runs the roots are covered, from the
moment on at which it starts or they are added.
-/
import ChangeRelay.Error
import ChangeRelay.Watch.Coverage

namespace ChangeRelay

/-- The working directory as a path. -/
def Disk.workingPath (d : Disk) : Path :=
  ⟨Path.separator :: [Path.separator].intercalate d.workingDirectory⟩

/-- A path as seen from the root of the file system. -/
def Disk.absolute (d : Disk) (p : Path) : Path := d.workingPath.join p

/-- A watcher. -/
structure Watcher where
  /-- The directories that are to be watched. -/
  roots : List Path
  running : Bool
  /-- Where changes are noticed. -/
  coverage : Coverage
  deriving DecidableEq, Repr

namespace Watcher

/-- A watcher that has no roots and does not run. -/
def idle : Watcher := ⟨[], false, .empty⟩

instance : Inhabited Watcher := ⟨idle⟩

/-- Whether a path is a root. -/
def isWatching (w : Watcher) (p : Path) : Bool := w.roots.any fun r => decide (r.Same p)

/-- Adds a root, which has to be a directory and no root yet. -/
def watch (w : Watcher) (d : Disk) (p : Path) : Except RelayError Watcher :=
  if !d.isDirectory p then .error (.directoryNotFound p.display)
  else if w.isWatching p then .error (.alreadyWatching p.display)
  else
    .ok { w with
      roots := w.roots ++ [p]
      coverage := if w.running then w.coverage.cover d (d.absolute p) true else w.coverage }

/-- Removes a root. -/
def unwatch (w : Watcher) (d : Disk) (p : Path) : Except RelayError Watcher :=
  if w.isWatching p then
    .ok { w with
      roots := w.roots.filter fun r => !decide (r.Same p)
      coverage := w.coverage.release (d.absolute p) }
  else .error (.directoryNotFound p.display)

/-- Starts watching the roots that are there. -/
def start (w : Watcher) (d : Disk) : Watcher :=
  if w.running then w
  else
    { w with
      running := true
      coverage := w.roots.foldl (fun c p => c.cover d (d.absolute p) true) .empty }

/-- Stops watching; the roots are kept. -/
def stop (w : Watcher) : Watcher := { w with running := false, coverage := .empty }

end Watcher
end ChangeRelay
