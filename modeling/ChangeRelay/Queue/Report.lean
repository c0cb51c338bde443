/-
Reports: mutations that a host observes in some phase are submitted to the worker as one batch. A
report without mutations is accepted and comes to nothing, even when the worker accepts no more.
-/
import ChangeRelay.Queue.Worker
import ChangeRelay.Relay.Run

namespace ChangeRelay

/-- A batch as it is submitted: mutations, and how they are classified. -/
structure Submission where
  mutations : List Mutation
  classify : Classifier

namespace Submission

/-- The calls that a batch comes to: none if one of its mutations cannot be classified. -/
def run {σ : Type} (h : Host σ) (d : Disk) (x : Expander) (s : Submission) :
    StateM σ (List Call) := do
  let outcome? ← ChangeRelay.run h d x s.classify s.mutations
  pure ((outcome?.map (·.calls)).getD [])

end Submission

/-- A worker that takes mutations to the calls of engines. -/
abbrev RelayWorker := Worker Submission Call

/-- Reports mutations that are observed in a phase. -/
def Worker.report (w : RelayWorker) (p : Phase) (ms : List Mutation) :
    Except RelayError RelayWorker :=
  if ms.isEmpty then .ok w else w.submit ⟨ms, p.classifier⟩

end ChangeRelay
