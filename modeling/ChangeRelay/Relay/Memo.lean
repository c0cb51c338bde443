/-
Which entries are relevant. Directories are not, and neither is metadata. A host may take long to
tell metadata, so it is asked once about each path and its answer is kept: it counts from then on
for every path that is the same, however that one is written.
-/
import ChangeRelay.Host.Basic

namespace ChangeRelay

/-- The answers that a host gave about metadata, each with the path that was asked about. -/
structure Memo where
  answers : List (Path × Bool)
  deriving DecidableEq, Repr

namespace Memo

variable {σ : Type}

/-- Before anything has been asked. -/
def empty : Memo := ⟨[]⟩

/-- The answer that is known for a path. -/
def get? (m : Memo) (p : Path) : Option Bool :=
  (m.answers.find? fun e => decide (e.1.Same p)).map (·.2)

/-- Keeps an answer. -/
def insert (m : Memo) (p : Path) (answer : Bool) : Memo := ⟨m.answers ++ [(p, answer)]⟩

/-- Whether an entry is metadata. -/
def isMetadata (h : Host σ) (m : Memo) (e : Entry) : StateM σ (Bool × Memo) :=
  match m.get? e.path with
  | some answer => pure (answer, m)
  | none => do
    let answer ← h.isMetadata e
    pure (answer, m.insert e.path answer)

/-- Whether an entry is relevant. -/
def isRelevant (h : Host σ) (m : Memo) (e : Entry) : StateM σ (Bool × Memo) :=
  if e.isDirectory then pure (false, m)
  else do
    let (answer, m) ← m.isMetadata h e
    pure (!answer, m)

end Memo
end ChangeRelay
