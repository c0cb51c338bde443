/-
What engines see of a worker. Every call that the worker makes is notified to a delivery, which hands
the calls over on its own, at any time, and may be aborted at any time. The delivery does not hold the
worker up, and it hears of the calls in the order in which they are made (`Service.notified_history`). Since
runs are started in the order in which their batches were accepted, each engine sees its calls in
that order (`delivered_inOrder`).
-/
import ChangeRelay.Proofs.Queue.Course
import ChangeRelay.Proofs.Queue.Delivery

namespace ChangeRelay

variable {σ : Type}

/-! ## A worker and the delivery of its calls -/

/-- A worker in its course, and the delivery of the calls that it makes. -/
structure Service (σ : Type) where
  course : Course σ
  delivery : Delivery Call

namespace Service

/-- What may happen to a worker or to the delivery of its calls. -/
inductive Event (σ : Type) where
  | worker (e : ChangeRelay.Event σ)
  | handOver (r : Reaction)
  /-- The cancellation of the delivery takes effect. -/
  | abort

/-- Nothing has happened yet. -/
def start (w : σ) : Service σ := ⟨.start w, .idle⟩

/-- What happens to the worker in an event, if anything does. -/
def Event.worker? : Event σ → Option (ChangeRelay.Event σ)
  | .worker e => some e
  | _ => none

/-- What happens to the delivery in an event: the calls that the worker makes are notified to it. -/
def heard (run : Submission → StateM σ (List Call)) (s : Service σ) : Event σ → List (Delivery.Event Call)
  | .worker e =>
    ((s.course.act run e).worker.calls.drop s.course.worker.calls.length).map .notify
  | .handOver r => [.handOver r]
  | .abort => [.abort]

/-- Lets something happen. -/
def act (run : Submission → StateM σ (List Call)) (s : Service σ) (e : Event σ) : Service σ :=
  ⟨s.course.after run e.worker?.toList, s.delivery.after (s.heard run e)⟩

/-- Lets some things happen, one after the other. -/
def after (run : Submission → StateM σ (List Call)) (s : Service σ) (es : List (Event σ)) : Service σ :=
  es.foldl (act run) s

/-- What happens to the delivery while some things happen. -/
def history (run : Submission → StateM σ (List Call)) : Service σ → List (Event σ) → List (Delivery.Event Call)
  | _, [] => []
  | s, e :: es => s.heard run e ++ history run (s.act run e) es

variable {run : Submission → StateM σ (List Call)} {s : Service σ}

theorem delivery_after : ∀ (es : List (Event σ)) (s : Service σ),
    (s.after run es).delivery = s.delivery.after (s.history run es)
  | [], _ => rfl
  | e :: es, s => by
    have ih := delivery_after es (s.act run e)
    rw [history, Delivery.after_append]
    exact ih

/-- The worker takes its course whatever becomes of its calls. -/
theorem course_after : ∀ (es : List (Event σ)) (s : Service σ),
    (s.after run es).course = s.course.after run (es.filterMap Event.worker?)
  | [], _ => rfl
  | e :: es, s => by
    have ih := course_after es (s.act run e)
    cases e <;> exact ih

/-- In every event the delivery hears of the calls that are made in it. -/
theorem notified_heard (s : Service σ) (e : Event σ) :
    s.course.worker.calls ++ Delivery.notified (s.heard run e) = (s.act run e).course.worker.calls := by
  cases e with
  | worker e =>
    obtain ⟨new, hnew⟩ := s.course.calls_act run e
    have hact : (s.act run (.worker e)).course = s.course.act run e := rfl
    rw [hact, heard, ← hnew, List.drop_left, Delivery.notified_map_notify]
  | handOver r => exact List.append_nil _
  | abort => exact List.append_nil _

/-- The delivery hears of all calls of the worker, in their order. -/
theorem notified_history : ∀ (es : List (Event σ)) (s : Service σ),
    s.course.worker.calls ++ Delivery.notified (s.history run es) = (s.after run es).course.worker.calls
  | [], s => List.append_nil _
  | e :: es, s => by
    have ih := notified_history es (s.act run e)
    rw [history, Delivery.notified_append, ← List.append_assoc, notified_heard]
    exact ih

end Service

/-! ## The order in which engines see calls -/

/-- Whatever happens to a delivery, the calls delivered are the first of those notified, each once and in
their order. If it is the delivery of the calls of a worker, it is notified of these in the order in
which they are made; so what is delivered are the first calls of the runs of the batches that
were accepted first, in their order, and so it is for the calls of every single engine. -/
theorem delivered_inOrder (run : Submission → StateM σ (List Call)) (w : σ) :
    (∀ (κ : Type) (es : List (Delivery.Event κ)), Delivery.InOrder es) ∧
    ∀ es : List (Service.Event σ),
      let s := (Service.start w).after run es
      let history := (Service.start w).history run es
      s.course = (Course.start w).after run (es.filterMap Service.Event.worker?) ∧
      s.delivery = Delivery.idle.after history ∧
      Delivery.notified history = s.course.worker.calls ∧
      s.course.started.map (·.1) <+: s.course.accepted ∧
      s.delivery.delivered <+: s.course.started.flatMap (callsOf run) ∧
      ∀ e : Engine, s.delivery.delivered.filter (fun c => decide (c.engine = e)) <+:
        s.course.started.flatMap fun r => (callsOf run r).filter fun c => decide (c.engine = e) := by
  refine ⟨fun κ es => Delivery.inOrder es, fun es => ?_⟩
  intro s history
  have hcourse : s.course = (Course.start w).after run (es.filterMap Service.Event.worker?) :=
    Service.course_after es _
  have hdelivery : s.delivery = Delivery.idle.after history := Service.delivery_after es _
  have hnotified : Delivery.notified history = s.course.worker.calls :=
    Service.notified_history es (Service.start w)
  have horder : s.course.InOrder run := hcourse ▸ (Course.start_inOrder w).after _
  -- what is delivered are the first of the calls made, and these are the first of the calls of the runs
  have hdelivered : s.delivery.delivered <+: s.course.started.flatMap (callsOf run) := by
    have hmade : s.delivery.delivered <+: s.course.worker.calls := by
      rw [hdelivery, ← hnotified]
      exact (Delivery.inOrder history).delivered
    exact hmade.trans ⟨_, horder.calls⟩
  refine ⟨hcourse, hdelivery, hnotified, horder.started, hdelivered, fun e => ?_⟩
  rw [← List.filter_flatMap]
  exact hdelivered.filter _

end ChangeRelay
