/-
The kinds of change that are relayed, and the phases in which mutations are observed. The same
mutation means different things before and after it is applied: a move removes the old file when
it is seen coming, and makes the new one when it is seen done.
-/
import ChangeRelay.Json.Reader
import ChangeRelay.Json.Value

namespace ChangeRelay

open Json (Document Answer Value)

/-- The kind of a change to a file. -/
inductive ChangeKind where
  | created
  | deleted
  | modified
  deriving DecidableEq, Repr

/-- When mutations are observed. -/
inductive Phase where
  /-- They are about to be applied. -/
  | beforeMutation
  /-- They have just been applied. -/
  | afterMutation
  /-- Only finished mutations are seen. -/
  | settled
  deriving DecidableEq, Repr

namespace ChangeKind

/-- The name of a kind. -/
def name : ChangeKind → String
  | .created => "created"
  | .deleted => "deleted"
  | .modified => "modified"

/-- The kind of a name. -/
def ofName? (s : String) : Option ChangeKind :=
  if s = "created" then some .created
  else if s = "deleted" then some .deleted
  else if s = "modified" then some .modified
  else none

/-- A kind as a value. -/
def toValue (k : ChangeKind) : Value := .text k.name

/-- Reads a kind. -/
def read (d : Document) : Answer ChangeKind := d.readName ofName?

end ChangeKind

namespace Phase

/-- The name of a phase. -/
def name : Phase → String
  | .beforeMutation => "before_mutation"
  | .afterMutation => "after_mutation"
  | .settled => "settled"

/-- The phase of a name. -/
def ofName? (s : String) : Option Phase :=
  if s = "before_mutation" then some .beforeMutation
  else if s = "after_mutation" then some .afterMutation
  else if s = "settled" then some .settled
  else none

/-- A phase as a value. -/
def toValue (p : Phase) : Value := .text p.name

/-- Reads a phase. -/
def read (d : Document) : Answer Phase := d.readName ofName?

end Phase
end ChangeRelay
