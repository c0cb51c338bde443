/-
Metadata: the files in which editors keep their own state about a project. They are told by
patterns on the text of their path.
-/
import ChangeRelay.Error
import ChangeRelay.Path
import ChangeRelay.Pattern.Match

namespace ChangeRelay

/-- The patterns of the files that are metadata. -/
structure MetadataRules where
  patterns : List Pattern
  deriving DecidableEq, Repr

namespace MetadataRules

/-- Reads patterns, or reports the first text that is none. -/
def readPatterns : List String → Except RelayError (List Pattern)
  | [] => .ok []
  | s :: ss =>
    match Pattern.ofText s with
    | .error f => .error (.invalidPattern s f)
    | .ok p => (readPatterns ss).map (p :: ·)

/-- The rules with the given patterns. -/
def ofTexts (texts : List String) : Except RelayError MetadataRules :=
  (readPatterns texts).map .mk

/-- The patterns that are used unless others are given: project models and editor workspaces. -/
def standardTexts : List String := [
  "**/.idea/**", "**/*.iml", "**/*.ipr", "**/*.iws", "**/.vscode/**"]

/-- The rules with the standard patterns. -/
def standard : MetadataRules := ⟨standardTexts.filterMap fun s => (Pattern.ofText s).toOption⟩

instance : Inhabited MetadataRules := ⟨standard⟩

/-- Whether a path is that of metadata. -/
def covers (r : MetadataRules) (p : Path) : Bool := r.patterns.any (·.accepts p.display)

end MetadataRules
end ChangeRelay
