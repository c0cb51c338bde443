/-
The course of a worker: what happens to it, in any order. Mutations are submitted or reported, barriers
set, the worker is closed, it is given up when its time to drain is over, its consumer takes steps, and
between all of these the host and the disk may change. Along with the worker a course remembers which
batches have been accepted, and which runs have been started and on what world.

The runs that have been started are those of the first batches that were accepted, in their order, and
the calls are theirs, with those of the last run perhaps not all made (`Course.InOrder`). Every event
keeps this, and so it holds at every point of every course (`InOrder.after`), whatever is run;
`relay_inOrder` says it of the runs of a relay.
-/
import ChangeRelay.Proofs.Queue.Steps
import ChangeRelay.Proofs.Relay.Routing
import ChangeRelay.Queue.Report

namespace ChangeRelay

variable {σ : Type}

/-! ## Courses -/

/-- What may happen to a worker, or to the world that its runs see. -/
inductive Event (σ : Type) where
  | submit (b : Submission)
  | report (p : Phase) (ms : List Mutation)
  /-- A barrier is set. -/
  | flush
  /-- The worker is closed. -/
  | shutdown
  /-- The consumer of a worker that has been closed is given up, for its time to drain is over. This is the
  moment at which the cancellation takes effect; steps may come between the end of that time and it. -/
  | giveUp
  /-- The consumer takes a step. -/
  | step
  /-- The world changes. -/
  | change (f : σ → σ)

/-- A worker in its world, with what has happened to it. -/
structure Course (σ : Type) where
  worker : RelayWorker
  world : σ
  /-- The batches that have been accepted. -/
  accepted : List Submission
  /-- The batches of the runs that have been started, each with the world that its run saw. -/
  started : List (Submission × σ)
  /-- The number of runs that have ended. -/
  finished : Nat

/-- Runs a batch, and writes down that it has been started and on which world. -/
def logged (run : Submission → StateM σ (List Call)) (b : Submission) :
    StateM (σ × List (Submission × σ)) (List Call) := fun s =>
  (((run b).run s.1).1, ((run b).run s.1).2, s.2 ++ [(b, s.1)])

namespace Course

/-- A worker that has nothing to do, in some world. -/
def start (s : σ) : Course σ := ⟨.idle, s, [], [], 0⟩

/-- Some batches were submitted: they are accepted if the worker goes on, and else nothing happens. -/
def enter (c : Course σ) (bs : List Submission) : Except RelayError RelayWorker → Course σ
  | .ok w => { c with worker := w, accepted := c.accepted ++ bs }
  | .error _ => c

/-- Lets something happen. -/
def act (run : Submission → StateM σ (List Call)) (c : Course σ) : Event σ → Course σ
  | .submit b => c.enter [b] (c.worker.submit b)
  | .report p ms => c.enter (if ms.isEmpty then [] else [⟨ms, p.classifier⟩]) (c.worker.report p ms)
  | .flush => c.enter [] (c.worker.setBarrier.map (·.2))
  | .shutdown => { c with worker := c.worker.close }
  | .giveUp => if c.worker.accepting || c.worker.hasStopped then c else { c with worker := c.worker.abort }
  | .step =>
    let r := (c.worker.step (logged run)).run (c.world, c.started)
    { c with
      worker := r.1
      world := r.2.1
      started := r.2.2
      finished := if c.worker.consumer = .running [] then c.finished + 1 else c.finished }
  | .change f => { c with world := f c.world }

/-- Lets some things happen, one after the other. -/
def after (run : Submission → StateM σ (List Call)) (c : Course σ) (es : List (Event σ)) : Course σ :=
  es.foldl (act run) c

end Course

/-- The calls that have been made stay made. -/
theorem Course.calls_act (run : Submission → StateM σ (List Call)) (c : Course σ) (e : Event σ) :
    c.worker.calls <+: (c.act run e).worker.calls := by
  obtain ⟨⟨accepting, queue, consumer, calls, issued, passed⟩, world, accepted, started, finished⟩ := c
  cases e with
  | submit b => cases accepting <;> exact List.prefix_rfl
  | report p ms => cases ms <;> cases accepting <;> exact List.prefix_rfl
  | flush => cases accepting <;> exact List.prefix_rfl
  | shutdown => exact List.prefix_rfl
  | giveUp =>
    rw [act]
    split <;> exact List.prefix_rfl
  | step => exact (Worker.step_move (logged run) _ (world, started)).calls_kept
  | change f => exact List.prefix_rfl

/-- Writing runs down changes nothing about a step. -/
theorem step_logged (run : Submission → StateM σ (List Call)) (w : RelayWorker) (s : σ)
    (log : List (Submission × σ)) :
    ((w.step (logged run)).run (s, log)).1 = ((w.step run).run s).1 ∧
      ((w.step (logged run)).run (s, log)).2.1 = ((w.step run).run s).2 := by
  obtain ⟨accepting, queue, consumer, calls, issued, passed⟩ := w
  cases consumer with
  | waiting =>
    cases queue with
    | nil => exact ⟨rfl, rfl⟩
    | cons j queue => cases j <;> exact ⟨rfl, rfl⟩
  | running cs => cases cs <;> exact ⟨rfl, rfl⟩
  | stopped cs => cases cs <;> exact ⟨rfl, rfl⟩

/-- Steps are the events of a course in which nothing else happens. -/
theorem Course.after_steps (run : Submission → StateM σ (List Call)) : ∀ (n : Nat) (c : Course σ),
    (Worker.steps run n c.worker).run c.world =
      ((c.after run (List.replicate n .step)).worker, (c.after run (List.replicate n .step)).world)
  | 0, _ => rfl
  | n + 1, c => by
    obtain ⟨hworker, hworld⟩ := step_logged run c.worker c.world c.started
    have ih := Course.after_steps run n (c.act run .step)
    rw [Worker.steps, run_bind, ← hworker, ← hworld]
    exact ih

/-- To settle the worker of a course is to go on with its steps. -/
theorem Course.settle_after (run : Submission → StateM σ (List Call)) (held : Bool) (c : Course σ) :
    ∃ n, (c.worker.settle run held).run c.world =
      ((c.after run (List.replicate n .step)).worker, (c.after run (List.replicate n .step)).world) := by
  obtain ⟨n, hn⟩ := Worker.settle_steps run held c.worker c.world
  exact ⟨n, hn.trans (c.after_steps run n)⟩

/-! ## Order -/

/-- The calls that come of a run. -/
def callsOf (run : Submission → StateM σ (List Call)) (r : Submission × σ) : List Call :=
  ((run r.1).run r.2).1

/-- The calls that come of the run that was started last. -/
def Course.lastCalls (run : Submission → StateM σ (List Call)) (c : Course σ) : List Call :=
  (c.started.getLast?.map (callsOf run)).getD []

/-- The order of runs and calls at some point of a course. -/
structure Course.InOrder (run : Submission → StateM σ (List Call)) (c : Course σ) : Prop where
  /-- Runs are started in the order in which their batches were accepted. -/
  started : c.started.map (·.1) <+: c.accepted
  /-- As long as the consumer works, no batch that was accepted is lost. -/
  queued : c.worker.hasStopped = false → c.accepted = c.started.map (·.1) ++ c.worker.batches
  /-- The calls that have been made and those ahead are the calls of the runs. -/
  calls : c.worker.calls ++ c.worker.consumer.ahead = c.started.flatMap (callsOf run)
  /-- The calls ahead are the last ones of the last run. -/
  ahead : c.worker.consumer.ahead <:+ c.lastCalls run
  /-- There is at most one run that has not ended. -/
  single : c.started.length ≤ c.finished + 1
  /-- There is none while the consumer waits. -/
  waiting : c.worker.consumer = .waiting → c.started.length = c.finished
  /-- There is one while the consumer has a run in progress. -/
  running : ∀ cs, c.worker.consumer = .running cs → c.started.length = c.finished + 1

namespace Course

variable {run : Submission → StateM σ (List Call)} {c : Course σ}

theorem start_inOrder (s : σ) : (start s).InOrder run :=
  ⟨List.nil_prefix, fun _ => rfl, rfl, List.suffix_refl _, Nat.zero_le _, fun _ => rfl, nofun⟩

/-- The order is kept by a worker that takes batches at the end of its queue and does nothing else. -/
theorem InOrder.enter (h : c.InOrder run) {bs : List Submission} {r : Except RelayError RelayWorker}
    (hr : ∀ w, r = .ok w → w.consumer = c.worker.consumer ∧ w.calls = c.worker.calls ∧
      w.batches = c.worker.batches ++ bs) : (c.enter bs r).InOrder run := by
  cases r with
  | error e => exact h
  | ok w =>
    obtain ⟨hconsumer, hcalls, hbatches⟩ := hr w rfl
    refine ⟨h.started.trans (List.prefix_append _ _), fun hw => ?_, ?_, ?_, h.single, ?_, ?_⟩
    · have hw' : c.worker.hasStopped = false := by
        rw [← hw]; unfold Worker.hasStopped Course.enter; rw [hconsumer]
      show c.accepted ++ bs = c.started.map (·.1) ++ w.batches
      rw [h.queued hw', hbatches, List.append_assoc]
    · show w.calls ++ w.consumer.ahead = _
      rw [hcalls, hconsumer]
      exact h.calls
    · show w.consumer.ahead <:+ _
      rw [hconsumer]
      exact h.ahead
    · show w.consumer = _ → _
      rw [hconsumer]
      exact h.waiting
    · show ∀ cs, w.consumer = _ → _
      rw [hconsumer]
      exact h.running

theorem InOrder.submit (h : c.InOrder run) (b : Submission) : (c.act run (.submit b)).InOrder run :=
  h.enter fun _ hw => Worker.enqueue_ok hw

theorem InOrder.report (h : c.InOrder run) (p : Phase) (ms : List Mutation) :
    (c.act run (.report p ms)).InOrder run := by
  refine h.enter fun w hw => ?_
  unfold Worker.report at hw
  split at hw
  · rename_i hempty
    cases hw
    rw [if_pos hempty]
    exact ⟨rfl, rfl, (List.append_nil _).symm⟩
  · rename_i hempty
    rw [if_neg hempty]
    exact Worker.enqueue_ok hw

theorem InOrder.flush (h : c.InOrder run) : (c.act run .flush).InOrder run := by
  refine h.enter fun w hw => ?_
  unfold Worker.setBarrier at hw
  cases hj : c.worker.enqueue (.barrier c.worker.issued) with
  | error e => rw [hj] at hw; cases hw
  | ok w' =>
    rw [hj] at hw
    cases hw
    exact Worker.enqueue_ok hj

theorem InOrder.giveUp (h : c.InOrder run) : (c.act run .giveUp).InOrder run := by
  rw [act]
  split
  · exact h
  · exact ⟨h.started, nofun, h.calls, h.ahead, h.single, nofun, nofun⟩

theorem InOrder.start (h : c.InOrder run) {b : Submission} {queue : List (Job Submission)}
    (hc : c.worker.consumer = .waiting) (hq : c.worker.queue = .batch b :: queue) :
    InOrder run ⟨{ c.worker with queue := queue, consumer := .running (callsOf run (b, c.world)) },
      ((run b).run c.world).2, c.accepted, c.started ++ [(b, c.world)], c.finished⟩ := by
  -- the first batch in the queue is the first of those that were accepted and have not been started
  have hbatches : c.worker.batches = b :: queue.filterMap Job.batch? := by
    unfold Worker.batches
    rw [hq]
    rfl
  have haccepted : c.accepted = (c.started ++ [(b, c.world)]).map (·.1) ++ queue.filterMap Job.batch? := by
    rw [h.queued (Worker.hasStopped_of_waiting hc), hbatches, List.map_append, List.append_assoc]
    rfl
  have hcalls : c.worker.calls = c.started.flatMap (callsOf run) := by
    rw [← h.calls, hc, Consumer.ahead, List.append_nil]
  have hlength : (c.started ++ [(b, c.world)]).length = c.finished + 1 := by
    rw [List.length_append, h.waiting hc, List.length_singleton]
  refine ⟨⟨_, haccepted.symm⟩, fun _ => haccepted, ?_, ?_, Nat.le_of_eq hlength, nofun, fun _ _ => hlength⟩
  · show c.worker.calls ++ callsOf run (b, c.world) = _
    rw [hcalls, List.flatMap_append, List.flatMap_singleton]
  · show callsOf run (b, c.world) <:+ (((c.started ++ [(b, c.world)]).getLast?).map (callsOf run)).getD []
    rw [List.getLast?_concat]
    exact List.suffix_refl _

theorem InOrder.call (h : c.InOrder run) {k : Call} {cs : List Call} (hc : c.worker.consumer.ahead = k :: cs) :
    c.worker.calls ++ [k] ++ cs = c.started.flatMap (callsOf run) ∧ cs <:+ c.lastCalls run := by
  refine ⟨?_, (List.suffix_cons k cs).trans (hc ▸ h.ahead)⟩
  rw [List.append_assoc, List.singleton_append, ← hc]
  exact h.calls

/-- A move of the consumer keeps the order: a run that is started is that of the next batch, and a call that
is made is the next one of the last run. -/
theorem InOrder.move (h : c.InOrder run) {w : RelayWorker} {r : σ × List (Submission × σ)}
    (hmove : c.worker.Move (logged run) (c.world, c.started) w r) :
    InOrder run ⟨w, r.1, c.accepted, r.2,
      if c.worker.consumer = .running [] then c.finished + 1 else c.finished⟩ := by
  cases hmove with
  | start b queue hc hq =>
    rw [if_neg (by simp [hc])]
    exact h.start hc hq
  | pass t queue hc hq =>
    rw [if_neg (by simp [hc])]
    refine ⟨h.started, fun hw => ?_, h.calls, h.ahead, h.single, h.waiting, h.running⟩
    rw [h.queued hw]
    show _ ++ c.worker.queue.filterMap Job.batch? = _ ++ queue.filterMap Job.batch?
    rw [hq, List.filterMap_cons_none rfl]
  | stop hc hq ha =>
    rw [if_neg (by simp [hc])]
    refine ⟨h.started, nofun, ?_, List.nil_suffix, h.single, nofun, nofun⟩
    rw [← h.calls, hc]
    rfl
  | call k cs hc =>
    rw [if_neg (by simp [hc])]
    obtain ⟨hcalls, hahead⟩ := h.call (by rw [hc]; rfl)
    exact ⟨h.started, fun _ => h.queued (Worker.hasStopped_of_running hc), hcalls, hahead, h.single, nofun,
      fun _ _ => h.running _ hc⟩
  | finish hc =>
    rw [if_pos hc]
    refine ⟨h.started, fun _ => h.queued (Worker.hasStopped_of_running hc), ?_, List.nil_suffix,
      Nat.le_succ_of_le h.single, fun _ => h.running _ hc, nofun⟩
    rw [← h.calls, hc]
    rfl
  | lateCall k cs hc =>
    rw [if_neg (by simp [hc])]
    obtain ⟨hcalls, hahead⟩ := h.call (by rw [hc]; rfl)
    exact ⟨h.started, nofun, hcalls, hahead, h.single, nofun, nofun⟩
  | rest hc =>
    rw [if_neg (by rcases hc with hc | ⟨hc, -, -⟩ <;> simp [hc])]
    exact h

theorem InOrder.step (h : c.InOrder run) : (c.act run .step).InOrder run :=
  h.move (Worker.step_move (logged run) c.worker (c.world, c.started))

theorem InOrder.act (h : c.InOrder run) : ∀ e : Event σ, (c.act run e).InOrder run
  | .submit b => h.submit b
  | .report p ms => h.report p ms
  | .flush => h.flush
  | .shutdown => ⟨h.started, h.queued, h.calls, h.ahead, h.single, h.waiting, h.running⟩
  | .giveUp => h.giveUp
  | .step => h.step
  | .change _ => ⟨h.started, h.queued, h.calls, h.ahead, h.single, h.waiting, h.running⟩

/-- Every point of a course is in order if its start is. -/
theorem InOrder.after : ∀ (es : List (Event σ)) {c : Course σ}, c.InOrder run → (c.after run es).InOrder run
  | [], _, h => h
  | e :: es, _, h => InOrder.after es (h.act e)

/-- The calls that have been made are those of all runs but the last, and some of the first ones of the
last run; the calls ahead are its others. -/
theorem InOrder.calls_eq (h : c.InOrder run) : ∃ made,
    c.worker.calls = c.started.dropLast.flatMap (callsOf run) ++ made ∧
      made ++ c.worker.consumer.ahead = c.lastCalls run := by
  obtain ⟨made, hmade⟩ := h.ahead
  refine ⟨made, ?_, hmade⟩
  have hall : c.started.flatMap (callsOf run) = c.started.dropLast.flatMap (callsOf run) ++ c.lastCalls run := by
    unfold lastCalls
    cases hlast : c.started.getLast? with
    | none => rw [List.getLast?_eq_none_iff.1 hlast]; rfl
    | some r =>
      obtain ⟨before, hbefore⟩ := List.getLast?_eq_some_iff.1 hlast
      rw [hbefore, List.dropLast_concat, List.flatMap_append, List.flatMap_singleton]
      rfl
  have hcalls := h.calls
  rw [hall, ← hmade, ← List.append_assoc] at hcalls
  exact List.append_cancel_right hcalls

end Course

/-! ## Workers of a relay -/

/-- What the runs of a relay see: the host in its state, and the disk. -/
structure World (σ : Type) where
  host : σ
  disk : Disk

/-- Runs a batch on the world as it is. -/
def Submission.relay (h : Host σ) (x : Expander) (b : Submission) : StateM (World σ) (List Call) := fun w =>
  let r := (b.run h w.disk x).run w.host
  (r.1, { w with host := r.2 })

/-- The calls that come of a batch are those of a run with the host and the disk that it saw; there are
none if one of its mutations cannot be classified. -/
theorem callsOf_relay (h : Host σ) (x : Expander) (b : Submission) (w : World σ) :
    ((∃ m ∈ b.mutations, b.classify m = .failed) → callsOf (Submission.relay h x) (b, w) = []) ∧
    ((∀ m ∈ b.mutations, b.classify m ≠ .failed) →
      ∃ o, ((run h w.disk x b.classify b.mutations).run w.host).1 = some o ∧
        callsOf (Submission.relay h x) (b, w) = o.calls) := by
  have hcalls : callsOf (Submission.relay h x) (b, w) =
      (((run h w.disk x b.classify b.mutations).run w.host).1.map (·.calls)).getD [] := rfl
  have hnone := run_eq_none_iff h w.disk x b.classify b.mutations w.host
  refine ⟨fun hfail => by rw [hcalls, hnone.2 hfail]; rfl, fun hall => ?_⟩
  cases ho : ((run h w.disk x b.classify b.mutations).run w.host).1 with
  | none =>
    obtain ⟨m, hm, hf⟩ := hnone.1 ho
    exact absurd hf (hall m hm)
  | some o => exact ⟨o, rfl, by rw [hcalls, ho]; rfl⟩

/-- The worker of a relay, at every point of every course from the time when it has nothing to do. The runs
that have been started are those of the batches that were accepted first, in their order, and as long
as the consumer works the other batches are in the queue. At most one run has not ended; all calls of the
runs before the last one have been made, in their order, and of the last one some of the first. Each
run makes the calls that come of the host and the disk at the time when it was started. -/
theorem relay_inOrder (h : Host σ) (x : Expander) (w : World σ) (es : List (Event (World σ))) :
    let relay := Submission.relay h x
    let c := (Course.start w).after relay es
    c.started.map (·.1) <+: c.accepted ∧
    (c.worker.hasStopped = false → c.accepted = c.started.map (·.1) ++ c.worker.batches) ∧
    c.started.length ≤ c.finished + 1 ∧
    (∃ made, c.worker.calls = c.started.dropLast.flatMap (callsOf relay) ++ made ∧
      made ++ c.worker.consumer.ahead = c.lastCalls relay) ∧
    ∀ b w, (b, w) ∈ c.started →
      ((∃ m ∈ b.mutations, b.classify m = .failed) → callsOf relay (b, w) = []) ∧
      ((∀ m ∈ b.mutations, b.classify m ≠ .failed) →
        ∃ o, ((run h w.disk x b.classify b.mutations).run w.host).1 = some o ∧
          callsOf relay (b, w) = o.calls) := by
  intro relay c
  have hc : c.InOrder relay := (Course.start_inOrder w).after es
  exact ⟨hc.started, hc.queued, hc.single, hc.calls_eq, fun b w _ => callsOf_relay h x b w⟩

end ChangeRelay
