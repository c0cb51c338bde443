/-
Runs. A run takes reported mutations all the way: the open projects and their engines are taken down,
the changes gathered, and the batch is sent. If a mutation cannot be classified, nothing is sent.
-/
import ChangeRelay.Relay.Gather
import ChangeRelay.Relay.Router

namespace ChangeRelay

/-- The numbers of a run. -/
structure Summary where
  /-- Mutations that were reported. -/
  mutations : Nat
  /-- Changes that were gathered. -/
  changes : Nat
  /-- Modules whose changes were sent. -/
  dispatched : Nat
  /-- Modules whose changes were dropped. -/
  dropped : Nat
  deriving DecidableEq, Repr

/-- What came of a run. -/
structure Outcome where
  summary : Summary
  calls : List Call
  deriving DecidableEq, Repr

/-- What comes of sending a batch. -/
def Outcome.ofBatch (r : Router) (mutations : Nat) (b : Batch) : Outcome :=
  let sent := r.dispatch b
  ⟨⟨mutations, b.size, sent.dispatched, sent.dropped⟩, sent.calls⟩

/-- Takes mutations from their report to the calls of engines. -/
def run {σ : Type} (h : Host σ) (d : Disk) (x : Expander) (classify : Classifier)
    (ms : List Mutation) : StateM σ (Option Outcome) := do
  let projects ← h.openProjects
  let router ← Router.ofProjects h projects
  let batch? ← gather h d x projects classify ms
  pure (batch?.map (Outcome.ofBatch router ms.length))

end ChangeRelay
