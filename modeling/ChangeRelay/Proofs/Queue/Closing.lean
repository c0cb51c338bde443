/-
A worker that has been closed. From then on nothing that comes from outside changes it, all but empty
reports is refused, and to shut it down again does nothing (`Course.Shut`). What becomes of the batches that
were accepted before depends on how its consumer comes to stop. If it drains, every one of them has been run
to its end; no event but that the consumer is given up can lose one (`Course.Whole`). If that happens
first, the queue is lost; the runs that were started are those of the batches accepted first, and the last
of them, if it is in progress, makes the calls that are ahead of it, one at each step. Either way no run is
started and no other call made once the consumer has stopped (`Course.after_stopped`).
-/
import ChangeRelay.Proofs.Queue.Course

namespace ChangeRelay

variable {σ : Type}

/-! ## From outside -/

/-- Whether the consumer takes a step. -/
def Event.isStep : Event σ → Bool
  | .step => true
  | _ => false

namespace Course

variable {run : Submission → StateM σ (List Call)} {c : Course σ}

theorem after_append (es fs : List (Event σ)) :
    c.after run (es ++ fs) = (c.after run es).after run fs :=
  List.foldl_append

/-- All that comes from outside is refused, or comes to nothing. -/
structure Shut (run : Submission → StateM σ (List Call)) (c : Course σ) : Prop where
  isRunning : c.worker.isRunning = false
  submit : ∀ b, c.worker.submit b = .error .workerShutdown ∧ c.act run (.submit b) = c
  report : ∀ p ms, ms ≠ [] → c.worker.report p ms = .error .workerShutdown
  /-- An empty report is accepted, and nothing is put into the queue for it. -/
  reportNothing : ∀ p, c.worker.report p [] = .ok c.worker
  reported : ∀ p ms, c.act run (.report p ms) = c
  flush : ∀ held, c.worker.flush run held = pure (some (.error .workerShutdown), c.worker)
  flushed : c.act run .flush = c
  shutdown : c.act run .shutdown = c
  /-- To shut the worker down again is to do nothing, even while its consumer still drains. -/
  shutdownAgain : ∀ held, c.worker.shutdown run held = pure c.worker

theorem shut (h : c.worker.accepting = false) : c.Shut run := by
  obtain ⟨⟨accepting, queue, consumer, calls, issued, passed⟩, world, accepted, started, finished⟩ := c
  obtain rfl : accepting = false := h
  refine ⟨rfl, fun b => ⟨rfl, rfl⟩, ?_, fun p => rfl, ?_, fun held => rfl, rfl, rfl,
    fun held => rfl⟩
  · intro p ms hms
    cases ms with
    | nil => exact absurd rfl hms
    | cons m ms => rfl
  · intro p ms
    cases ms with
    | nil => simp only [act, enter, Worker.report, List.isEmpty_nil, if_true, List.append_nil]
    | cons m ms => rfl

/-- Only closing it changes whether a worker accepts something. -/
theorem accepting_act {e : Event σ} (he : e ≠ .shutdown) :
    (c.act run e).worker.accepting = c.worker.accepting := by
  obtain ⟨⟨accepting, queue, consumer, calls, issued, passed⟩, world, accepted, started, finished⟩ := c
  cases e with
  | submit b => cases accepting <;> rfl
  | report p ms => cases ms <;> cases accepting <;> rfl
  | flush => cases accepting <;> rfl
  | shutdown => exact absurd rfl he
  | giveUp =>
    rw [act]
    split <;> rfl
  | step => exact (Worker.step_move (logged run) _ (world, started)).accepting_eq
  | change f => rfl

theorem accepting_after_open : ∀ (es : List (Event σ)) {c : Course σ}, Event.shutdown ∉ es →
    (c.after run es).worker.accepting = c.worker.accepting
  | [], _, _ => rfl
  | e :: es, c, hes => by
    rw [List.mem_cons, not_or] at hes
    have ih : ((c.act run e).after run es).worker.accepting = (c.act run e).worker.accepting :=
      accepting_after_open es hes.2
    exact ih.trans (accepting_act fun he => hes.1 he.symm)

theorem accepting_after_closed : ∀ (es : List (Event σ)) {c : Course σ}, c.worker.accepting = false →
    (c.after run es).worker.accepting = false
  | [], _, h => h
  | e :: es, c, h => by
    refine accepting_after_closed es (c := c.act run e) ?_
    cases e with
    | shutdown => rfl
    | _ => exact (accepting_act (by simp)).trans h

theorem accepted_after_closed : ∀ (es : List (Event σ)) {c : Course σ}, c.worker.accepting = false →
    (c.after run es).accepted = c.accepted
  | [], _, _ => rfl
  | e :: es, c, h => by
    have hshut : c.Shut run := shut h
    have one : (c.act run e).accepted = c.accepted := by
      cases e with
      | submit b => rw [(hshut.submit b).2]
      | report p ms => rw [hshut.reported]
      | flush => rw [hshut.flushed]
      | giveUp =>
        rw [act]
        split <;> rfl
      | _ => rfl
    have h' : (c.act run e).worker.accepting = false := accepting_after_closed [e] h
    exact (accepted_after_closed es h').trans one

/-! ## A worker that drains -/

/-- No batch that was accepted has been lost, and all have been run to their end if the consumer has
stopped. -/
structure Whole (c : Course σ) : Prop where
  batches : c.accepted = c.started.map (·.1) ++ c.worker.batches
  drained : ∀ cs, c.worker.consumer = .stopped cs →
    c.worker.accepting = false ∧ cs = [] ∧ c.worker.queue = [] ∧ c.finished = c.started.length

theorem start_whole (s : σ) : (start s).Whole := ⟨rfl, nofun⟩

/-- Where the consumer has not stopped, nothing has been lost. -/
theorem InOrder.whole (h : c.InOrder run) (hc : c.worker.hasStopped = false) : c.Whole := by
  refine ⟨h.queued hc, fun cs hcs => ?_⟩
  rw [Worker.hasStopped, hcs] at hc
  cases hc

theorem Whole.hasStopped_eq_false (hw : c.Whole) (ha : c.worker.accepting = true) :
    c.worker.hasStopped = false := by
  rw [Bool.eq_false_iff, Ne, Worker.hasStopped_iff]
  rintro ⟨left, hleft⟩
  have hclosed : c.worker.accepting = false := (hw.drained left hleft).1
  rw [ha] at hclosed
  cases hclosed

theorem Whole.move (hw : c.Whole) (h : c.InOrder run) {w : RelayWorker} {r : σ × List (Submission × σ)}
    (hmove : c.worker.Move (logged run) (c.world, c.started) w r) :
    Whole ⟨w, r.1, c.accepted, r.2, if c.worker.consumer = .running [] then c.finished + 1 else c.finished⟩ := by
  have hnext := h.move hmove
  cases hmove with
  | start b queue hc hq => exact hnext.whole rfl
  | pass t queue hc hq => exact hnext.whole (Worker.hasStopped_of_waiting hc)
  | stop hc hq ha =>
    refine ⟨hw.batches, fun cs hcs => ?_⟩
    cases hcs
    refine ⟨ha, rfl, hq, ?_⟩
    rw [if_neg (by simp [hc])]
    exact (h.waiting hc).symm
  | call k cs hc => exact hnext.whole rfl
  | finish hc => exact hnext.whole rfl
  | lateCall k cs hc =>
    -- a consumer that has drained its queue has no call left
    have hnil : k :: cs = [] := (hw.drained _ hc).2.1
    cases hnil
  | rest hc =>
    rw [if_neg (by rcases hc with hc | ⟨hc, -, -⟩ <;> simp [hc])]
    exact hw

/-- A batch is lost only if the consumer is given up. -/
theorem Whole.act (hw : c.Whole) (h : c.InOrder run) {e : Event σ}
    (he : e = .giveUp → c.worker.accepting = true) : (c.act run e).Whole := by
  -- what comes from outside has an effect only on a worker that is open, and so has not stopped
  have outside (hclosed : c.worker.accepting = false → c.act run e = c)
      (hopen : c.worker.accepting = true → (c.act run e).worker.consumer = c.worker.consumer) :
      (c.act run e).Whole := by
    cases ha : c.worker.accepting with
    | false => rw [hclosed ha]; exact hw
    | true =>
      refine (h.act e).whole ?_
      rw [Worker.hasStopped, hopen ha]
      exact hw.hasStopped_eq_false ha
  cases e with
  | submit b =>
    refine outside (fun ha => ((shut ha).submit b).2) fun ha => ?_
    simp only [Course.act, Worker.submit, Worker.enqueue, ha, if_true, enter]
  | report p ms =>
    refine outside (fun ha => (shut ha).reported p ms) fun ha => ?_
    cases ms <;> simp [Course.act, Worker.report, Worker.submit, Worker.enqueue, ha, enter]
  | flush =>
    refine outside (fun ha => (shut ha).flushed) fun ha => ?_
    simp only [Course.act, Worker.setBarrier, Worker.enqueue, ha, if_true, Except.map, enter]
  | shutdown => exact ⟨hw.batches, fun cs hcs => ⟨rfl, (hw.drained cs hcs).2⟩⟩
  | giveUp =>
    rw [Course.act, he rfl]
    exact hw
  | step => exact hw.move h (Worker.step_move (logged run) c.worker (c.world, c.started))
  | change f => exact ⟨hw.batches, hw.drained⟩

/-- A worker that is open, or that is not given up, loses nothing. -/
theorem Whole.after_open : ∀ (es : List (Event σ)) {c : Course σ}, c.Whole → c.InOrder run →
    Event.shutdown ∉ es → c.worker.accepting = true → (c.after run es).Whole
  | [], _, hw, _, _, _ => hw
  | e :: es, c, hw, h, hes, ha => by
    rw [List.mem_cons, not_or] at hes
    have ha' : (c.act run e).worker.accepting = true := (accepting_act fun he => hes.1 he.symm).trans ha
    exact Whole.after_open es (hw.act h fun _ => ha) (h.act e) hes.2 ha'

theorem Whole.after_patient : ∀ (es : List (Event σ)) {c : Course σ}, c.Whole → c.InOrder run →
    Event.giveUp ∉ es → (c.after run es).Whole
  | [], _, hw, _, _ => hw
  | e :: es, c, hw, h, hes => by
    rw [List.mem_cons, not_or] at hes
    exact Whole.after_patient es (hw.act h fun he => absurd he.symm hes.1) (h.act e) hes.2

/-! ## After the consumer has stopped -/

/-- What has happened to a course, whose consumer had stopped with some calls left, once a number of
these have been made. -/
structure Spent (c : Course σ) (left : List Call) (n : Nat) (c' : Course σ) : Prop where
  started : c'.started = c.started
  accepted : c'.accepted = c.accepted
  calls : c'.worker.calls = c.worker.calls ++ left.take n
  consumer : c'.worker.consumer = .stopped (left.drop n)

/-- A consumer that has stopped makes one of the calls that it has left at a step, and nothing else is
done. -/
theorem act_stopped {left : List Call} (ha : c.worker.accepting = false)
    (hc : c.worker.consumer = .stopped left) (e : Event σ) :
    c.Spent left (if e.isStep then 1 else 0) (c.act run e) := by
  have same : c.Spent left 0 c := ⟨rfl, rfl, by simp, hc⟩
  have hshut : c.Shut run := shut ha
  cases e with
  | submit b => rw [(hshut.submit b).2]; exact same
  | report p ms => rw [hshut.reported]; exact same
  | flush => rw [hshut.flushed]; exact same
  | shutdown => exact ⟨rfl, rfl, by simp [Course.act, Worker.close, Event.isStep], hc⟩
  | giveUp =>
    have hstopped : c.worker.hasStopped = true := Worker.hasStopped_iff.2 ⟨left, hc⟩
    rw [Course.act, hstopped, Bool.or_true, if_pos rfl]
    exact same
  | step =>
    obtain ⟨⟨accepting, queue, consumer, calls, issued, passed⟩, world, accepted, started, finished⟩ := c
    obtain rfl : consumer = .stopped left := hc
    cases left with
    | nil => exact ⟨rfl, rfl, (List.append_nil calls).symm, rfl⟩
    | cons k left => exact ⟨rfl, rfl, rfl, rfl⟩
  | change f => exact ⟨rfl, rfl, by simp [Course.act, Event.isStep], hc⟩

/-- After a number of steps as many of the calls that were left have been made, whatever happens in
between. -/
theorem after_stopped : ∀ (es : List (Event σ)) {c : Course σ} {left : List Call},
    c.worker.accepting = false → c.worker.consumer = .stopped left →
    c.Spent left (es.countP Event.isStep) (c.after run es)
  | [], c, left, _, hc => ⟨rfl, rfl, by simp [after], hc⟩
  | e :: es, c, left, ha, hc => by
    have one : c.Spent left (if e.isStep then 1 else 0) (c.act run e) := act_stopped ha hc e
    have ha' : (c.act run e).worker.accepting = false := accepting_after_closed [e] ha
    -- the rest of the course makes its calls from what this event has left
    have rest := after_stopped es ha' one.consumer
    rw [List.countP_cons, Nat.add_comm]
    refine ⟨rest.started.trans one.started, rest.accepted.trans one.accepted, ?_, ?_⟩
    · refine rest.calls.trans ?_
      rw [one.calls, List.append_assoc, ← List.take_add]
    · refine rest.consumer.trans ?_
      rw [List.drop_drop]

/-! ## Shutting down -/

/-- To shut an open worker down at once is to close it, to let its consumer take steps, and to give it up if
it has not stopped then. -/
theorem shutdown_after (held : Bool) (ha : c.worker.accepting = true) :
    ∃ n, (c.worker.shutdown run held).run c.world =
      let returned := c.after run (.shutdown :: List.replicate n .step ++ [.giveUp])
      (returned.worker, returned.world) := by
  obtain ⟨n, hn⟩ := Worker.shutdown_steps run held c.worker c.world ha
  refine ⟨n, ?_⟩
  let settled := (c.act run .shutdown).after run (.replicate n .step)
  have hclosed : settled.worker.accepting = false := accepting_after_closed _ rfl
  have hsteps : (Worker.steps run n c.worker.close).run c.world = (settled.worker, settled.world) :=
    (c.act run .shutdown).after_steps run n
  have hreturned : c.after run (.shutdown :: List.replicate n .step ++ [.giveUp]) = settled.act run .giveUp := by
    rw [List.cons_append]
    exact after_append (c := c.act run .shutdown) _ _
  rw [hn, hsteps, hreturned, act, hclosed, Bool.false_or]
  dsimp only
  -- both give the consumer up only where it has not stopped
  split <;> rfl

/-- The run in progress is that of the batch that was started last. -/
theorem InOrder.inProgress (h : c.InOrder run) {cs : List Call} (hc : c.worker.consumer = .running cs) :
    ∃ done last, c.started = done ++ [last] ∧ done.length = c.finished ∧ cs <:+ callsOf run last := by
  have hlength : c.started.length = c.finished + 1 := h.running cs hc
  have hahead : cs <:+ c.lastCalls run := by
    have := h.ahead
    rwa [hc] at this
  cases hlast : c.started.getLast? with
  | none =>
    rw [List.getLast?_eq_none_iff.1 hlast] at hlength
    cases hlength
  | some last =>
    obtain ⟨done, hdone⟩ := List.getLast?_eq_some_iff.1 hlast
    rw [lastCalls, hlast] at hahead
    rw [hdone, List.length_append, List.length_singleton] at hlength
    exact ⟨done, last, hdone, Nat.succ.inj hlength, hahead⟩

end Course

/-- The worker of a relay that is shut down, in any course in which it was not shut down before, at any time
after: it is closed for good. If it drains, all batches that had been accepted have been run to their end in
their order. If it is given up before, no other run is ever started, and the one in progress makes the calls
ahead of it. To shut a worker down at once is to go on so until one of the two happens. -/
theorem relay_shutdown (h : Host σ) (x : Expander) (w : World σ) (before meanwhile : List (Event (World σ)))
    (first : Event.shutdown ∉ before) :
    let relay := Submission.relay h x
    let closing := (Course.start w).after relay before
    let c := closing.after relay (.shutdown :: meanwhile)
    c.Shut relay ∧ c.accepted = closing.accepted ∧
    (Event.giveUp ∉ meanwhile → c.worker.hasStopped = true →
      c.started.map (·.1) = closing.accepted ∧ c.finished = c.started.length ∧
      c.worker.calls = c.started.flatMap (callsOf relay) ∧
      ∀ later, (c.after relay later).started = c.started ∧ (c.after relay later).worker.calls = c.worker.calls) ∧
    (c.worker.hasStopped = false → ∀ later,
      let ended := c.after relay (.giveUp :: later)
      let made := later.countP Event.isStep
      ended.started = c.started ∧ c.started.map (·.1) <+: closing.accepted ∧
      (c.worker.consumer = .waiting → c.started.length = c.finished) ∧
      (∀ cs, c.worker.consumer = .running cs →
        ∃ done last, c.started = done ++ [last] ∧ done.length = c.finished ∧ cs <:+ callsOf relay last) ∧
      ended.worker.calls = c.worker.calls ++ c.worker.consumer.ahead.take made ∧
      (c.worker.consumer.ahead.length ≤ made → ended.worker.calls = c.started.flatMap (callsOf relay))) ∧
    ∀ held, ∃ n, (closing.worker.shutdown relay held).run closing.world =
      let returned := closing.after relay (.shutdown :: List.replicate n .step ++ [.giveUp])
      (returned.worker, returned.world) := by
  intro relay closing c
  have horder : closing.InOrder relay := (Course.start_inOrder w).after before
  have hopen : closing.worker.accepting = true := Course.accepting_after_open before first
  have hwhole : closing.Whole := (Course.start_whole w).after_open before (Course.start_inOrder w) first rfl
  have hclosed : c.worker.accepting = false :=
    Course.accepting_after_closed meanwhile (c := closing.act relay .shutdown) rfl
  have haccepted : c.accepted = closing.accepted :=
    Course.accepted_after_closed meanwhile (c := closing.act relay .shutdown) rfl
  have hc : c.InOrder relay := horder.after (.shutdown :: meanwhile)
  refine ⟨Course.shut hclosed, haccepted, fun patient hstopped => ?_, fun hgoes later => ?_, fun held =>
    Course.shutdown_after held hopen⟩
  · -- the consumer was not given up, so it has stopped with nothing left
    have hw : c.Whole := by
      refine hwhole.after_patient (.shutdown :: meanwhile) horder fun hmem => ?_
      rcases List.mem_cons.1 hmem with he | hmem
      · cases he
      · exact patient hmem
    obtain ⟨left, hleft⟩ := Worker.hasStopped_iff.1 hstopped
    obtain ⟨-, rfl, hqueue, hfinished⟩ := hw.drained left hleft
    have hstarted : c.started.map (·.1) = c.accepted := by
      rw [hw.batches, Worker.batches, hqueue, List.filterMap_nil, List.append_nil]
    have hcalls : c.worker.calls = c.started.flatMap (callsOf relay) := by
      rw [← hc.calls, hleft, Consumer.ahead, List.append_nil]
    refine ⟨hstarted.trans haccepted, hfinished, hcalls, fun later => ?_⟩
    have spent : c.Spent [] _ (c.after relay later) := Course.after_stopped later hclosed hleft
    exact ⟨spent.started, by rw [spent.calls, List.take_nil, List.append_nil]⟩
  · -- the queue is lost, and of the run in progress the calls ahead remain
    intro ended made
    have hlost : c.act relay .giveUp = { c with worker := c.worker.abort } := by
      rw [Course.act, hclosed, hgoes]
      rfl
    have spent : (c.act relay .giveUp).Spent c.worker.consumer.ahead made ended := by
      refine Course.after_stopped later ?_ ?_
      · rw [hlost]; exact hclosed
      · rw [hlost]; rfl
    have hmade : ended.worker.calls = c.worker.calls ++ c.worker.consumer.ahead.take made := by
      rw [spent.calls, hlost]
      rfl
    refine ⟨by rw [spent.started, hlost], haccepted ▸ hc.started, hc.waiting, fun cs => hc.inProgress, hmade,
      fun hall => ?_⟩
    rw [hmade, List.take_of_length_le hall]
    exact hc.calls

/-- A batch with a change to `/w/a`. -/
def Submission.sample : Submission := ⟨[.modified (.file ⟨[47, 119, 47, 97]⟩)], Phase.settled.classifier⟩

/-- The consumer is given up while the first of two batches is run: its call is made all the same, and the
second batch is lost. -/
theorem relay_shutdown_in_progress :
    let relay := Submission.relay Registry.host (.ofInclusion .all)
    let before : List (Event (World Registry)) := [.submit .sample, .submit .sample, .step]
    let ended := ((Course.start ⟨.sample, .empty []⟩).after relay before).after relay
      [.shutdown, .giveUp, .step, .step]
    Event.shutdown ∉ before ∧ ended.accepted.length = 2 ∧ ended.started.length = 1 ∧
      ended.worker.calls.map (·.changes.length) = [1] := by
  intro relay before ended
  have first : Event.shutdown ∉ before := by simp [before]
  obtain ⟨-, -, -, timeOver, -⟩ := relay_shutdown Registry.host (.ofInclusion .all) ⟨.sample, .empty []⟩ before []
    first
  obtain ⟨hstarted, -, -, -, -, hcalls⟩ := timeOver rfl [.step, .step]
  have hstarted : ended.started = _ := hstarted
  have hcalls : ended.worker.calls = _ := hcalls (by decide +kernel)
  rw [hstarted, hcalls]
  exact ⟨first, by decide +kernel⟩

end ChangeRelay
