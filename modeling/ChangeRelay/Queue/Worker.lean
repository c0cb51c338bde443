/-
The worker: one consumer that takes batches from a queue and runs them one at a time, in the order
in which they were submitted. A barrier in the queue is passed once all before it is done. The state
of the worker is moved by those who submit, by steps of its consumer, and by the end of the time
that it is given to drain; the steps may fall in any order.

A run is taken as a whole from the state that it finds when it begins; the calls that come of it
are then made one by one. Once the worker has been closed it accepts nothing more. If it does not
drain in time its consumer is aborted: what is queued is lost, but the run in progress makes all its
calls. Only the one who closes the worker waits for it to drain.

`settle` takes every step that the consumer can take; calls that are held back stop it.
-/
import ChangeRelay.Error

namespace ChangeRelay

/-- What stands in the queue of a worker. -/
inductive Job (β : Type) where
  | batch (b : β)
  /-- A place that someone waits for, with the number of the wait. -/
  | barrier (ticket : Nat)
  deriving DecidableEq, Repr

/-- What the consumer of a worker is doing. -/
inductive Consumer (κ : Type) where
  /-- It takes the next job when there is one. -/
  | waiting
  /-- It has a run in progress, with the calls that are still to be made. -/
  | running (ahead : List κ)
  /-- It takes no more jobs; a run that was in progress has these calls still to make. -/
  | stopped (ahead : List κ)
  deriving DecidableEq, Repr

/-- The calls that are still to be made. -/
def Consumer.ahead {κ : Type} : Consumer κ → List κ
  | .waiting => []
  | .running cs | .stopped cs => cs

/-- A worker that runs batches of type `β`, which come to calls of type `κ`. -/
structure Worker (β κ : Type) where
  /-- Whether batches and barriers are accepted. -/
  accepting : Bool
  queue : List (Job β)
  consumer : Consumer κ
  /-- The calls that have been made. -/
  calls : List κ
  /-- The number of barriers that have been set. -/
  issued : Nat
  /-- The barriers that have been passed. -/
  passed : List Nat
  deriving DecidableEq, Repr

namespace Worker

variable {σ β κ : Type}

/-- A worker that has nothing to do. -/
def idle : Worker β κ := ⟨true, [], .waiting, [], 0, []⟩

instance : Inhabited (Worker β κ) := ⟨idle⟩

/-! ## From outside -/

/-- Whether batches are still accepted. -/
def isRunning (w : Worker β κ) : Bool := w.accepting

/-- Puts a job at the end of the queue. -/
def enqueue (w : Worker β κ) (j : Job β) : Except RelayError (Worker β κ) :=
  if w.accepting then .ok { w with queue := w.queue ++ [j] } else .error .workerShutdown

/-- Submits a batch. -/
def submit (w : Worker β κ) (b : β) : Except RelayError (Worker β κ) := w.enqueue (.batch b)

/-- Sets a barrier after all that has been submitted, and gives its number. -/
def setBarrier (w : Worker β κ) : Except RelayError (Nat × Worker β κ) :=
  (w.enqueue (.barrier w.issued)).map fun w => (w.issued, { w with issued := w.issued + 1 })

/-- Whether a barrier has been passed. -/
def hasPassed (w : Worker β κ) (ticket : Nat) : Bool := w.passed.contains ticket

/-- Whether a barrier is still in the queue. -/
def awaits (w : Worker β κ) (ticket : Nat) : Bool :=
  w.queue.any fun
    | .barrier t => t == ticket
    | .batch _ => false

/-- What one who waits for a barrier is told, if the wait is over: a barrier that is neither passed
nor in the queue has been lost with it. -/
def answer? (w : Worker β κ) (ticket : Nat) : Option (Except RelayError Unit) :=
  if w.hasPassed ticket then some (.ok ())
  else if w.awaits ticket then none
  else some (.error .workerShutdown)

/-- Accepts no more. -/
def close (w : Worker β κ) : Worker β κ := { w with accepting := false }

/-- Gives up what is queued; a run in progress is left to finish. This stands for the moment at which
the cancellation takes effect: until then the consumer may go on to take steps. -/
def abort (w : Worker β κ) : Worker β κ :=
  { w with queue := [], consumer := .stopped w.consumer.ahead }

/-! ## The consumer -/

/-- Takes one step of the consumer, if there is one to take. -/
def step (run : β → StateM σ (List κ)) (w : Worker β κ) : StateM σ (Worker β κ) :=
  match w.consumer, w.queue with
  | .running (c :: cs), _ => pure { w with consumer := .running cs, calls := w.calls ++ [c] }
  | .running [], _ => pure { w with consumer := .waiting }
  | .stopped (c :: cs), _ => pure { w with consumer := .stopped cs, calls := w.calls ++ [c] }
  | .stopped [], _ => pure w
  | .waiting, .batch b :: queue => do
    let cs ← run b
    pure { w with queue := queue, consumer := .running cs }
  | .waiting, .barrier t :: queue => pure { w with queue := queue, passed := w.passed ++ [t] }
  | .waiting, [] => pure (if w.accepting then w else { w with consumer := .stopped [] })

/-- Makes the calls of the run in progress, and ends it. -/
def finishRun (w : Worker β κ) : Worker β κ :=
  match w.consumer with
  | .waiting => w
  | .running cs => { w with consumer := .waiting, calls := w.calls ++ cs }
  | .stopped cs => { w with consumer := .stopped [], calls := w.calls ++ cs }

/-- Takes the jobs of a queue, until none is left or a call has to be made though calls are held
back; the worker has no run in progress. -/
def consume (run : β → StateM σ (List κ)) (held : Bool) (w : Worker β κ) :
    List (Job β) → StateM σ (Worker β κ)
  | [] => pure { w with queue := [], consumer := if w.accepting then .waiting else .stopped [] }
  | .barrier t :: queue => consume run held { w with passed := w.passed ++ [t] } queue
  | .batch b :: queue => do
    let cs ← run b
    if held && !cs.isEmpty then pure { w with queue := queue, consumer := .running cs }
    else consume run held { w with calls := w.calls ++ cs } queue

/-- Takes all steps of the consumer. If calls are held back, it stops before the first. -/
def settle (run : β → StateM σ (List κ)) (held : Bool) (w : Worker β κ) : StateM σ (Worker β κ) :=
  if held && !w.consumer.ahead.isEmpty then pure w
  else
    let w := w.finishRun
    match w.consumer with
    | .waiting => consume run held w w.queue
    | _ => pure w

/-- Whether the consumer takes no more jobs. -/
def hasStopped (w : Worker β κ) : Bool :=
  match w.consumer with
  | .stopped _ => true
  | _ => false

/-- Closes the worker and lets it drain. If calls are held back beyond the time that it is given, its
consumer is aborted. To close the worker is also to take over the wait for its consumer, so one who
finds it closed returns at once, even while it still drains. -/
def shutdown (run : β → StateM σ (List κ)) (held : Bool) (w : Worker β κ) :
    StateM σ (Worker β κ) := do
  if w.isRunning then
    let w ← w.close.settle run held
    pure (if w.hasStopped then w else w.abort)
  else pure w

/-- Waits until all that has been submitted is done. There is no answer as long as calls that have to
be made before are held back. -/
def flush (run : β → StateM σ (List κ)) (held : Bool) (w : Worker β κ) :
    StateM σ (Option (Except RelayError Unit) × Worker β κ) :=
  match w.setBarrier with
  | .error e => pure (some (.error e), w)
  | .ok (ticket, w) => do
    let w ← w.settle run held
    pure (w.answer? ticket, w)

end Worker
end ChangeRelay
