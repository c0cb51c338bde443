/-
Readers of JSON documents: strings, flags, words of 64 bits, lists of strings, names out of a fixed
set, and records. A record is read from an object by the names of its fields or from a list by
their order; unknown fields are passed over, and a field that is given twice is a fault.
-/
import ChangeRelay.Json.Document

namespace ChangeRelay.Json

/-- The answer of a reader. -/
abbrev Answer (α : Type) := Except Flaw α

namespace Document

/-! ## Passing over and keeping -/

mutual

/-- The first fault that shows when a value is passed over. -/
def skipFlaw : Document → Option Flaw
  | .null => none
  | .flag _ => none
  | .number _ => none
  | .text _ => none
  | .cut _ _ onSkip => some onSkip
  | .list items ending => (skipItems items).or (skipEnding ending)
  | .object fields ending => (skipFields fields).or (skipEnding ending)

/-- The first fault in a list of values that are passed over. -/
def skipItems : List Document → Option Flaw
  | [] => none
  | d :: ds => (skipFlaw d).or (skipItems ds)

/-- The first fault in a list of fields that are passed over. -/
def skipFields : List (Except Flaw String × Document) → Option Flaw
  | [] => none
  | (_, d) :: fs => (skipFlaw d).or (skipFields fs)

/-- The fault at the end of a list or object that is passed over. -/
def skipEnding : Ending → Option Flaw
  | .closed => none
  | .broken b => some b.onSkip

end

/-- The fault of a string that cannot be read. -/
def textFlaw : Except Flaw String → Option Flaw
  | .ok _ => none
  | .error f => some f

mutual

/-- The first fault that shows when a value is read to be kept, in which lists and objects may be
nested `levels` deep, the limit excluded. -/
def keepFlaw (levels : Nat) : Document → Option Flaw
  | .null => none
  | .flag _ => none
  | .number .tooLarge => some .grammar
  | .number _ => none
  | .text s => textFlaw s
  | .cut _ onRead _ => some onRead
  | .list items ending =>
    if levels ≤ 1 then some .grammar
    else (keepItems (levels - 1) items).or (keepEnding ending)
  | .object fields ending =>
    if levels ≤ 1 then some .grammar
    else (keepFields (levels - 1) fields).or (keepEnding ending)

/-- The first fault in a list of values that are kept. -/
def keepItems (levels : Nat) : List Document → Option Flaw
  | [] => none
  | d :: ds => (keepFlaw levels d).or (keepItems levels ds)

/-- The first fault in a list of fields that are kept. -/
def keepFields (levels : Nat) : List (Except Flaw String × Document) → Option Flaw
  | [] => none
  | (k, d) :: fs => ((textFlaw k).or (keepFlaw levels d)).or (keepFields levels fs)

/-- The fault at the end of a list or object that is kept. -/
def keepEnding : Ending → Option Flaw
  | .closed => none
  | .broken b => some b.onNext

end

/-! ## Plain values -/

/-- The fault that is reported for a value of another kind than the one asked for. A list or an
object is not looked into. -/
def mismatch : Document → Flaw
  | .text (.error f) => f
  | .number .tooLarge => .grammar
  | .cut _ onRead _ => onRead
  | _ => .shape

/-- Reads a string. -/
def readText : Document → Answer String
  | .text s => s
  | d => .error d.mismatch

/-- Reads a flag. -/
def readFlag : Document → Answer Bool
  | .flag b => .ok b
  | d => .error d.mismatch

/-- Reads a whole number of at most 64 bits. -/
def readWord : Document → Answer Nat
  | .number (.word n) => .ok n
  | d => .error d.mismatch

/-- Reads a value that may be null. -/
def readOptional {α : Type} (read : Document → Answer α) : Document → Answer (Option α)
  | .null => .ok none
  | d => (read d).map some

/-- The end of a list or object has been reached. -/
def readClosed : Ending → Answer Unit
  | .closed => .ok ()
  | .broken b => .error b.onNext

/-- Reads the items of a list of strings. -/
def readTextItems (ending : Ending) : List Document → Answer (List String)
  | [] => (readClosed ending).map fun _ => []
  | d :: ds => do
    let s ← d.readText
    let rest ← readTextItems ending ds
    pure (s :: rest)

/-- Reads a list of strings. -/
def readTexts : Document → Answer (List String)
  | .list items ending => readTextItems ending items
  | d => .error d.mismatch

/-- The value that a name stands for. -/
def ofName {α : Type} (names : String → Option α) (s : String) : Answer α :=
  match names s with
  | some a => .ok a
  | none => .error .shape

/-- Reads a name out of a fixed set: a string, or an object whose only field has the name and the
value null. -/
def readName {α : Type} (names : String → Option α) : Document → Answer α
  | .text s => s.bind (ofName names)
  | .cut .other _ _ => .error .grammar
  | .cut _ onRead _ => .error onRead
  | .object [] .closed => .error .grammar
  | .object [] (.broken b) => .error b.onNext
  | .object ((k, d) :: more) ending => do
    let s ← k
    let a ← ofName names s
    match d with
    | .null =>
      match more, ending with
      | [], .closed => pure a
      | [], .broken b => .error b.onEnd
      | _ :: _, _ => .error .grammar
    | other => .error other.mismatch
  | _ => .error .grammar

/-! ## Records -/

end Document

/-- A field of a record while the record of type `σ` is being read. -/
structure RecordField (σ : Type) where
  name : String
  /-- Whether the field has been read already. -/
  isGiven : σ → Bool
  /-- Reads the field into the record. -/
  read : Document → σ → Answer σ

namespace Document

/-- Reads the fields of an object. -/
def readFields {σ : Type} (fields : List (RecordField σ)) (ending : Ending) :
    List (Except Flaw String × Document) → σ → Answer σ
  | [], s => (readClosed ending).map fun _ => s
  | (k, d) :: more, s => do
    let name ← k
    match fields.find? (·.name == name) with
    | some f =>
      if f.isGiven s then .error .shape
      else
        let s ← f.read d s
        readFields fields ending more s
    | none =>
      match d.skipFlaw with
      | some f => .error f
      | none => readFields fields ending more s

/-- Reads the fields of a record from a list, in their order. A list that is closed early leaves the
remaining fields as they are. -/
def readOrdered {σ : Type} (ending : Ending) : List (RecordField σ) → List Document → σ → Answer σ
  | [], [], s =>
    match ending with
    | .closed => .ok s
    | .broken b => .error b.onEnd
  | [], _ :: _, _ => .error .grammar
  | _ :: fs, [], s => do
    readClosed ending
    readOrdered ending fs [] s
  | f :: fs, d :: ds, s => do
    let s ← f.read d s
    readOrdered ending fs ds s

/-- Reads a record. -/
def readRecord {σ : Type} (fields : List (RecordField σ)) (start : σ) : Document → Answer σ
  | .object given ending => readFields fields ending given start
  | .list items ending => readOrdered ending fields items start
  | d => .error d.mismatch

/-- A field that has to be given. -/
def required {α : Type} : Option α → Answer α
  | some a => .ok a
  | none => .error .shape

end Document

/-- Number of lists and objects that may be nested in a text that is read to be kept, the limit
excluded. -/
def maxLevels : Nat := 128

/-- Reads a text that holds one value and nothing else. -/
def readWith {α : Type} (read : Document → Answer α) (s : String) : Answer α := do
  let a ← read (document s).1
  if (document s).2 then .error .grammar else pure a

end ChangeRelay.Json
