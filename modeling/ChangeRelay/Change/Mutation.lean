/-
Mutations of the file system as they are reported, and what they are taken for in each phase.
-/
import ChangeRelay.Change.Kind
import ChangeRelay.Entry

namespace ChangeRelay

/-- A reported mutation of the file system. -/
inductive Mutation where
  | created (entry : Entry)
  | deleted (entry : Entry)
  | modified (entry : Entry)
  | moved (source target : Entry)
  /-- An entry was copied; the target is new. -/
  | copied (source target : Entry)
  /-- A property of an entry changed, such as its name or its permissions. -/
  | property (entry : Entry) (name : String)
  deriving DecidableEq, Repr

namespace Mutation

/-- The entry that a mutation is about once it counts as a change of a kind. A copy is about its
target; a move is about its source when it counts as a deletion, and else about its target. -/
def primary (m : Mutation) (k : ChangeKind) : Entry :=
  match m with
  | .created e | .deleted e | .modified e | .property e _ => e
  | .copied _ target => target
  | .moved source target =>
    match k with
    | .deleted => source
    | .created | .modified => target

end Mutation

/-- The kind of change that a mutation counts as when it is observed in a phase, if it counts. -/
def Phase.classify : Phase → Mutation → Option ChangeKind
  | _, .property _ _ => none
  | .beforeMutation, .deleted _ | .beforeMutation, .moved _ _ => some .deleted
  | .beforeMutation, _ => none
  | .afterMutation, .created _ | .afterMutation, .copied _ _ | .afterMutation, .moved _ _ =>
    some .created
  | .afterMutation, .modified _ => some .modified
  | .afterMutation, .deleted _ => none
  | .settled, .created _ | .settled, .copied _ _ | .settled, .moved _ _ => some .created
  | .settled, .modified _ => some .modified
  | .settled, .deleted _ => some .deleted

end ChangeRelay
