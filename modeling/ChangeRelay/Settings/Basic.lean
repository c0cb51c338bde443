/-
The settings of a relay, how they are built up, and the file they are kept in. A field that the
file leaves out has its standard value.
-/
import ChangeRelay.Disk.Edit
import ChangeRelay.Settings.Inclusion
import ChangeRelay.Settings.Metadata

namespace ChangeRelay

open Json (Document Answer Value RecordField)

/-- The settings of a relay. -/
structure Settings where
  inclusion : Inclusion
  metadataPatterns : List String
  /-- Whether links are followed when a directory is walked. -/
  followLinks : Bool
  /-- How far below a directory its walk goes, if it is limited. -/
  maxDepth : Option UInt64
  /-- How long queued batches may take to drain, in milliseconds. -/
  drainMillis : UInt64
  deriving DecidableEq, Repr

namespace Settings

/-- The settings that are used unless others are given. -/
def standard : Settings :=
  ⟨.standard, MetadataRules.standardTexts, false, none, 5000⟩

instance : Inhabited Settings := ⟨standard⟩

/-! ## Building -/

/-- Chooses the files that are relayed. -/
def withInclusion (s : Settings) (i : Inclusion) : Settings := { s with inclusion := i }

/-- Adds a pattern of metadata. -/
def withMetadata (s : Settings) (pattern : String) : Settings :=
  { s with metadataPatterns := s.metadataPatterns ++ [pattern] }

/-- Limits walks to a depth. -/
def withMaxDepth (s : Settings) (depth : UInt64) : Settings := { s with maxDepth := some depth }

/-- Follows links when a directory is walked. -/
def followingLinks (s : Settings) : Settings := { s with followLinks := true }

/-- The nanoseconds of a millisecond. -/
def millisecond : Nat := 1000000

/-- The most milliseconds that are counted. -/
def maxMillis : Nat := Nat.pow 2 64 - 1

/-- Sets how long batches may take to drain, in nanoseconds; whole milliseconds count. -/
def withDrainTimeout (s : Settings) (nanoseconds : Nat) : Settings :=
  { s with drainMillis := UInt64.ofNat (min (nanoseconds / millisecond) maxMillis) }

/-- How long batches may take to drain, in nanoseconds. -/
def drainTimeout (s : Settings) : Nat := s.drainMillis.toNat * millisecond

/-- The rules for metadata. -/
def metadataRules (s : Settings) : Except RelayError MetadataRules :=
  MetadataRules.ofTexts s.metadataPatterns

/-! ## Written form -/

/-- The settings as a value. -/
def toValue (s : Settings) : Value :=
  .object [
    ("inclusion", s.inclusion.toValue),
    ("metadata_patterns", .list (s.metadataPatterns.map .text)),
    ("follow_symlinks", .flag s.followLinks),
    ("max_depth", match s.maxDepth with | none => .null | some d => .number d.toNat),
    ("drain_timeout_ms", .number s.drainMillis.toNat)]

/-- Settings of which some fields have been given. -/
structure Given where
  inclusion : Option Inclusion
  metadataPatterns : Option (List String)
  followLinks : Option Bool
  maxDepth : Option (Option UInt64)
  drainMillis : Option UInt64

/-- Settings of which nothing has been given. -/
def Given.nothing : Given := ⟨none, none, none, none, none⟩

/-- Reads a word of 64 bits. -/
def readWord64 (d : Document) : Answer UInt64 := d.readWord.map UInt64.ofNat

/-- The fields of the settings, in their order. -/
def fields : List (RecordField Given) := [
  { name := "inclusion"
    isGiven := fun g => g.inclusion.isSome
    read := fun d g => do
      let i ← Inclusion.read (Json.maxLevels - 1) d
      pure { g with inclusion := some i } },
  { name := "metadata_patterns"
    isGiven := fun g => g.metadataPatterns.isSome
    read := fun d g => do
      let ps ← d.readTexts
      pure { g with metadataPatterns := some ps } },
  { name := "follow_symlinks"
    isGiven := fun g => g.followLinks.isSome
    read := fun d g => do
      let b ← d.readFlag
      pure { g with followLinks := some b } },
  { name := "max_depth"
    isGiven := fun g => g.maxDepth.isSome
    read := fun d g => do
      let n ← Document.readOptional readWord64 d
      pure { g with maxDepth := some n } },
  { name := "drain_timeout_ms"
    isGiven := fun g => g.drainMillis.isSome
    read := fun d g => do
      let n ← readWord64 d
      pure { g with drainMillis := some n } }]

/-- The settings with what has been given. -/
def Given.complete (g : Given) : Settings :=
  ⟨g.inclusion.getD standard.inclusion, g.metadataPatterns.getD standard.metadataPatterns,
    g.followLinks.getD standard.followLinks, g.maxDepth.getD standard.maxDepth,
    g.drainMillis.getD standard.drainMillis⟩

/-- Reads settings. -/
def read (d : Document) : Answer Settings := (d.readRecord fields .nothing).map Given.complete

/-- The text of the settings in their file. -/
def written (s : Settings) : String := s.toValue.pretty

/-- Reads the text of settings. -/
def ofText (s : String) : Except RelayError Settings :=
  match Json.readWith read s with
  | .ok settings => .ok settings
  | .error f => .error (.serialization f)

/-- Loads settings from a file. -/
def load (d : Disk) (p : Path) : Except RelayError Settings :=
  match d.read p with
  | .error f => .error (.io f)
  | .ok bytes =>
    match Utf8.decode? bytes with
    | none => .error (.io .notText)
    | some s => ofText s

/-- Saves settings to a file. -/
def save (s : Settings) (d : Disk) (p : Path) : Except RelayError Disk :=
  match d.write p (Utf8.encode s.written) with
  | .error f => .error (.io f)
  | .ok d => .ok d

end Settings
end ChangeRelay
