/-
Gathering with a log. While changes are gathered it is written down what happens, in order: each
question to the host with its answer, each mutation that is taken, each expansion that begins, each
visit of a walk and each change that is added. Writing it down changes nothing: batch and host are
as they are without it (`gatherLogged_run`).

Everything that is known while changes are gathered can be read off the log so far
(`Gathering.ofLog`): the answers about metadata, and the changes.
-/
import ChangeRelay.Proofs.Host.Record
import ChangeRelay.Proofs.Relay.Grouping

namespace ChangeRelay

variable {σ : Type}

/-- What happens while changes are gathered. -/
inductive Gathering.Step where
  /-- A question to the host, with its answer. -/
  | asked (reply : Reply)
  /-- The next mutation is taken. -/
  | took (m : Mutation)
  /-- The expansion of an entry for its owner begins. -/
  | expanding (owner : SourceModule) (e : Entry)
  | visited (v : Visit)
  | added (c : Change)
  deriving DecidableEq, Repr

open Gathering (Step)

/-- Writes a step down. -/
def note (step : Step) : StateM (σ × List Step) Unit := fun s => ((), s.1, s.2 ++ [step])

/-- The host whose answers are written down. -/
def Host.logged (h : Host σ) : Host (σ × List Step) := h.recordedAs .asked

/-- The observer who writes down what happens. -/
def Observer.scribe : Observer (σ × List Step) where
  took m := note (.took m)
  expanding owner e := note (.expanding owner e)
  visited v := note (.visited v)
  added c := note (.added c)

theorem Observer.scribe_took (m : Mutation) : scribe.took m = note (σ := σ) (.took m) := rfl

theorem Observer.scribe_expanding (owner : SourceModule) (e : Entry) :
    scribe.expanding owner e = note (σ := σ) (.expanding owner e) := rfl

theorem Observer.scribe_visited (v : Visit) : scribe.visited v = note (σ := σ) (.visited v) := rfl

/-- Gathers changes and writes down, in order, each question with its answer and all that happens between. -/
def gatherLogged (h : Host σ) (d : Disk) (x : Expander) (projects : List ProjectId)
    (classify : Classifier) (ms : List Mutation) : StateM (σ × List Step) (Option Batch) :=
  gatherObserved .scribe h.logged d x projects classify ms

/-! ## The log changes nothing -/

theorem logged_inStep (h : Host σ) : Host.InStep SameHost (fun _ => False) h.logged h :=
  recordedAs_inStep h Step.asked

theorem note_inStep (step : Step) : InStep (SameHost (σ := σ)) (fun _ => False) (note step) (pure ()) :=
  ⟨fun _ _ h => .inr ⟨rfl, h⟩, fun _ h => h⟩

theorem scribe_inStep : Observer.InStep (SameHost (σ := σ)) (fun _ => False) .scribe .silent :=
  ⟨fun m => note_inStep (.took m), fun owner e => note_inStep (.expanding owner e),
    fun v => note_inStep (.visited v), fun c => note_inStep (.added c)⟩

/-- Batch and host are as they are without the log. -/
theorem gatherLogged_run (h : Host σ) (d : Disk) (x : Expander) (projects : List ProjectId)
    (classify : Classifier) (ms : List Mutation) (s : σ × List Step) :
    (gather h d x projects classify ms).run s.1 =
      (((gatherLogged h d x projects classify ms).run s).1,
        ((gatherLogged h d x projects classify ms).run s).2.1) := by
  have hstep : InStep SameHost (fun _ => False) (gatherLogged h d x projects classify ms)
      (gather h d x projects classify ms) :=
    gatherObserved_inStep (logged_inStep h) scribe_inStep d x projects classify ms
  exact Prod.ext (hstep.value_eq (s := s) rfl).symm (hstep.related (s := s) rfl).symm

/-! ## What can be read off a log -/

namespace Gathering

/-- The answer about metadata that a step brings, with the path that was asked about. -/
def Step.judged? : Step → Option (Path × Bool)
  | .asked (.isMetadata e answer) => some (e.path, answer)
  | _ => none

/-- The change that a step adds, if it adds one. -/
def Step.added? : Step → Option Change
  | .added c => some c
  | _ => none

/-- The visit that a step is, if it is one. -/
def Step.visited? : Step → Option Visit
  | .visited v => some v
  | _ => none

/-- The mutation that a step takes, if it takes one. -/
def Step.took? : Step → Option Mutation
  | .took m => some m
  | _ => none

/-- What has been gathered and is known after the steps of a log. -/
def ofLog (log : List Step) : Gathering :=
  ⟨⟨log.filterMap Step.judged?⟩, .ofChanges (log.filterMap Step.added?)⟩

theorem ofLog_append_eq {log own : List Step} (hadded : own.filterMap Step.added? = [])
    (hjudged : own.filterMap Step.judged? = []) : ofLog (log ++ own) = ofLog log := by
  rw [ofLog, ofLog, List.filterMap_append, List.filterMap_append, hadded, hjudged, List.append_nil,
    List.append_nil]

theorem ofLog_judged (log : List Step) (e : Entry) (answer : Bool) :
    ofLog (log ++ [.asked (.isMetadata e answer)]) =
      ⟨(ofLog log).memo.insert e.path answer, (ofLog log).batch⟩ := by
  have hadded : [Step.asked (.isMetadata e answer)].filterMap Step.added? = [] := rfl
  rw [ofLog, ofLog, List.filterMap_append, List.filterMap_append, hadded, List.append_nil]
  rfl

theorem ofLog_added (log : List Step) (c : Change) :
    ofLog (log ++ [.added c]) = ⟨(ofLog log).memo, (ofLog log).batch.add c.module c⟩ := by
  have hjudged : [Step.added c].filterMap Step.judged? = [] := rfl
  rw [ofLog, ofLog, List.filterMap_append, List.filterMap_append, hjudged, List.append_nil,
    Batch.add_ofChanges]
  rfl

end Gathering

end ChangeRelay
