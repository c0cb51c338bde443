/-
Entries: a path, and whether it is taken for a directory. An entry is made from what a reporter
says, or by looking at the disk. The extension of its path tells what a file is: the extensions of
documents, images, sounds, archives and compiled code are those of binary files.
-/
import ChangeRelay.Disk.Resolve

namespace ChangeRelay

/-- A path with the answer to whether it is a directory. -/
structure Entry where
  path : Path
  isDirectory : Bool
  deriving DecidableEq, Repr, Inhabited

namespace Entry

/-- An entry that is said to be no directory. -/
def file (p : Path) : Entry := ⟨p, false⟩

/-- An entry that is said to be a directory. -/
def directory (p : Path) : Entry := ⟨p, true⟩

/-- The entry that the disk shows at a path, links followed; what is missing counts as a file. -/
def probe (d : Disk) (p : Path) : Entry := ⟨p, d.isDirectory p⟩

/-- The extension of the path in lower case, if it has one that is text. -/
def extension? (e : Entry) : Option String := e.path.extension?

/-- The extensions of binary files. -/
def binaryExtensions : List String := [
  "pdf", "doc", "docx", "xls", "xlsx", "ppt", "pptx",
  "png", "jpg", "jpeg", "gif", "webp", "ico", "bmp",
  "mp3", "wav", "mp4", "webm",
  "zip", "tar", "gz", "jar", "war", "7z",
  "class", "pyc", "pyo", "o", "a", "so", "dll", "dylib", "exe", "wasm"]

/-- Whether the entry is a file of a binary format, by its extension. -/
def isBinary (e : Entry) : Bool :=
  !e.isDirectory && e.extension?.any fun x => binaryExtensions.contains x

end Entry
end ChangeRelay
