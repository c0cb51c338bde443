/-
Which files are relayed: all, all but those of binary formats, or those with one of a list of
extensions, whatever the case of their letters. Directories are never relayed.
-/
import ChangeRelay.Entry
import ChangeRelay.Json.Reader
import ChangeRelay.Json.Value

namespace ChangeRelay

open Json (Document Answer Value)

/-- Which files are relayed. -/
inductive Inclusion where
  | all
  | text
  | extensions (list : List String)
  deriving DecidableEq, Repr

namespace Inclusion

/-- An extension as it is listed: without leading dots, in lower case. -/
def listed (s : String) : String :=
  Text.lowercase (String.ofList (s.toList.dropWhile (· = '.')))

/-- The files with one of the extensions. -/
def ofExtensions (es : List String) : Inclusion := .extensions (es.map listed)

/-- The files that are relayed unless something else is said. -/
def standard : Inclusion := ofExtensions ["py"]

instance : Inhabited Inclusion := ⟨standard⟩

/-- Whether an entry is relayed. -/
def includes (i : Inclusion) (e : Entry) : Bool :=
  if e.isDirectory then false
  else
    match i with
    | .all => true
    | .text => !e.isBinary
    | .extensions list =>
      match e.extension? with
      | none => false
      | some x => list.any fun l => Text.sameButAsciiCase l x

/-! ## Written form -/

/-- The three modes. -/
inductive Mode where
  | all
  | text
  | extensions
  deriving DecidableEq, Repr

/-- The mode of a name. -/
def Mode.ofName? (s : String) : Option Mode :=
  if s = "all" then some .all
  else if s = "text" then some .text
  else if s = "extensions" then some .extensions
  else none

/-- The name of a mode. -/
def Mode.name : Mode → String
  | .all => "all"
  | .text => "text"
  | .extensions => "extensions"

/-- The choice of files as a value: an object with its mode, and the extensions if it has any. -/
def toValue : Inclusion → Value
  | .all => .object [("mode", .text Mode.all.name)]
  | .text => .object [("mode", .text Mode.text.name)]
  | .extensions list =>
    .object [("mode", .text Mode.extensions.name), ("extensions", .list (list.map .text))]

/-- Reads the name of a mode. -/
def readMode : Document → Answer Mode
  | .text s => s.bind (Document.ofName Mode.ofName?)
  | d => .error d.mismatch

/-- Keeps a list of values up to its end, or reports the first fault. -/
def keepAll (levels : Nat) (items : List Document) (ending : Json.Ending) : Answer Unit :=
  match (Document.keepItems levels items).or (Document.keepEnding ending) with
  | some f => .error f
  | none => .ok ()

/-- The choice that a mode and the values after it in a list stand for. -/
def ofItems : Mode → List Document → Answer Inclusion
  | .all, [] => .ok .all
  | .text, [] => .ok .text
  | .extensions, [d] => d.readTexts.map .extensions
  | _, _ => .error .shape

/-- The choice that a mode and the other fields of an object stand for. -/
def ofFields (mode : Mode) (fields : List (String × Document)) : Answer Inclusion :=
  match mode with
  | .all => .ok .all
  | .text => .ok .text
  | .extensions =>
    match fields.filter (·.1 == "extensions") with
    | [(_, d)] => d.readTexts.map .extensions
    | _ => .error .shape

/-- Reads the fields of an object: the mode, once, and fields that are kept for it. -/
def readFields (levels : Nat) (ending : Json.Ending) (mode : Option Mode)
    (kept : List (String × Document)) :
    List (Except Json.Flaw String × Document) → Answer Inclusion
  | [] => do
    Document.readClosed ending
    let m ← Document.required mode
    ofFields m kept
  | (k, d) :: more => do
    let name ← k
    if name = "mode" then
      if mode.isSome then .error .shape
      else
        let m ← readMode d
        readFields levels ending (some m) kept more
    else
      match d.keepFlaw levels with
      | some f => .error f
      | none => readFields levels ending mode (kept ++ [(name, d)]) more

/-- Reads a choice of files, in which lists and objects may be nested `levels` deep, the limit
excluded. -/
def read (levels : Nat) : Document → Answer Inclusion
  | .list [] ending => do
    Document.readClosed ending
    .error .shape
  | .list (d :: ds) ending => do
    let m ← readMode d
    keepAll (levels - 1) ds ending
    ofItems m ds
  | .object fields ending => readFields (levels - 1) ending none [] fields
  | d => .error d.mismatch

end Inclusion
end ChangeRelay
