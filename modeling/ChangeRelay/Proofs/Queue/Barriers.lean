/-
Barriers. Whoever waits for a barrier is told that it has been passed, or that it has been lost, and this is
the last that is told (`Course.Barrier`). As long as it stands in the queue, the batches that were
accepted before it are those that have been started and those that stand in front of it; so when it is
passed, all of them have been run to their end, and each has made all its calls, of which there are none for a
batch that could not be classified. It is lost only with the queue, when the consumer is aborted before it;
so that the worker is shut down is told exactly then, or if it was shut down before the wait. As long as
nothing is told the consumer still comes to it (`relay_flush`).

Barriers are of no consequence for batches: without them, and without the steps that pass them, a course
comes to the same (`Course.after_unbarred`).
-/
import ChangeRelay.Proofs.Queue.Closing

namespace ChangeRelay

variable {σ β κ : Type}

/-! ## Numbers -/

namespace Worker

/-- The number of the next barrier is new. -/
structure Numbered (w : Worker β κ) : Prop where
  queued : ∀ t, .barrier t ∈ w.queue → t < w.issued
  passed : ∀ t ∈ w.passed, t < w.issued

theorem Move.numbered {run : β → StateM σ (List κ)} {w w' : Worker β κ} {s s' : σ}
    (hw : w.Numbered) (h : Move run w s w' s') : w'.Numbered := by
  cases h with
  | start b queue hc hq =>
    exact ⟨fun t ht => hw.queued t (hq ▸ List.mem_cons_of_mem _ ht), hw.passed⟩
  | pass t queue hc hq =>
    refine ⟨fun t ht => hw.queued t (hq ▸ List.mem_cons_of_mem _ ht), fun t' ht' => ?_⟩
    rcases List.mem_append.1 ht' with ht' | ht'
    · exact hw.passed t' ht'
    · rw [List.mem_singleton.1 ht']
      exact hw.queued t (hq ▸ List.mem_cons_self)
  | _ => exact ⟨hw.queued, hw.passed⟩

theorem settle_queue (run : β → StateM σ (List κ)) (w : Worker β κ) (s : σ) (hw : w.hasStopped = false) :
    ((w.settle run false).run s).1.queue = [] := by
  have hconsume : ∀ (queue : List (Job β)) (w : Worker β κ) (s : σ),
      ((consume run false w queue).run s).1.queue = [] := by
    intro queue
    induction queue with
    | nil => intro w s; rfl
    | cons j queue ih =>
      intro w s
      cases j with
      | barrier t => exact ih _ s
      | batch b =>
        rw [consume_batch]
        exact ih _ _
  obtain ⟨accepting, queue, consumer, calls, issued, passed⟩ := w
  cases consumer with
  | waiting => exact hconsume _ _ _
  | running cs => exact hconsume _ _ _
  | stopped cs => cases hw

end Worker

/-- Whether a barrier is set. -/
def Event.isFlush : Event σ → Bool
  | .flush => true
  | _ => false

namespace Course

variable {run : Submission → StateM σ (List Call)} {c : Course σ} {e : Event σ} {t : Nat}

/-! ## What events leave as it is -/

/-- What comes from outside goes to the end of the queue. -/
theorem act_outside (run : Submission → StateM σ (List Call)) (c : Course σ) (hstep : e ≠ .step)
    (hgive : e ≠ .giveUp) : ∃ js,
    (c.act run e).worker.queue = c.worker.queue ++ js ∧
    (c.act run e).worker.consumer = c.worker.consumer ∧ (c.act run e).worker.passed = c.worker.passed ∧
    (c.act run e).started = c.started ∧ (c.act run e).finished = c.finished := by
  obtain ⟨⟨accepting, queue, consumer, calls, issued, passed⟩, world, accepted, started, finished⟩ := c
  have same : ∃ js, queue = queue ++ js ∧ consumer = consumer ∧ passed = passed ∧ started = started ∧
      finished = finished := ⟨[], (List.append_nil _).symm, rfl, rfl, rfl, rfl⟩
  cases e with
  | submit b =>
    cases accepting with
    | true => exact ⟨[.batch b], rfl, rfl, rfl, rfl, rfl⟩
    | false => exact same
  | report p ms =>
    cases ms with
    | nil => exact same
    | cons m ms =>
      cases accepting with
      | true => exact ⟨[.batch ⟨m :: ms, p.classifier⟩], rfl, rfl, rfl, rfl, rfl⟩
      | false => exact same
  | flush =>
    cases accepting with
    | true => exact ⟨[.barrier issued], rfl, rfl, rfl, rfl, rfl⟩
    | false => exact same
  | shutdown => exact same
  | giveUp => exact absurd rfl hgive
  | step => exact absurd rfl hstep
  | change f => exact same

theorem act_numbered (h : c.worker.Numbered) (e : Event σ) : (c.act run e).worker.Numbered := by
  obtain ⟨⟨accepting, queue, consumer, calls, issued, passed⟩, world, accepted, started, finished⟩ := c
  have queued (b : Submission) :
      Worker.Numbered (⟨accepting, queue ++ [.batch b], consumer, calls, issued, passed⟩ : RelayWorker) := by
    refine ⟨fun t ht => ?_, h.passed⟩
    rcases List.mem_append.1 ht with ht | ht
    · exact h.queued t ht
    · cases List.mem_singleton.1 ht
  cases e with
  | submit b =>
    cases accepting with
    | true => exact queued b
    | false => exact h
  | report p ms =>
    cases ms with
    | nil => exact h
    | cons m ms =>
      cases accepting with
      | true => exact queued _
      | false => exact h
  | flush =>
    cases accepting with
    | true =>
      refine ⟨fun t ht => ?_, fun t ht => Nat.lt_succ_of_lt (h.passed t ht)⟩
      rcases List.mem_append.1 ht with ht | ht
      · exact Nat.lt_succ_of_lt (h.queued t ht)
      · cases List.mem_singleton.1 ht
        exact Nat.lt_succ_self issued
    | false => exact h
  | shutdown => exact ⟨h.queued, h.passed⟩
  | giveUp =>
    rw [act]
    split
    · exact h
    · exact ⟨fun t ht => absurd ht List.not_mem_nil, h.passed⟩
  | step => exact (Worker.step_move (logged run) _ (world, started)).numbered h
  | change f => exact ⟨h.queued, h.passed⟩

theorem after_numbered : ∀ (es : List (Event σ)) {c : Course σ}, c.worker.Numbered →
    (c.after run es).worker.Numbered
  | [], _, h => h
  | e :: es, _, h => after_numbered es (act_numbered h e)

theorem start_numbered (s : σ) : (start s).worker.Numbered := ⟨nofun, nofun⟩

/-- Runs that have been started, their ends and barriers that have been passed stay so. -/
theorem act_keeps (run : Submission → StateM σ (List Call)) (c : Course σ) (e : Event σ) :
    c.started <+: (c.act run e).started ∧ c.finished ≤ (c.act run e).finished ∧
      c.worker.passed ⊆ (c.act run e).worker.passed := by
  by_cases hstep : e = .step
  · subst hstep
    have hmove := Worker.step_move (logged run) c.worker (c.world, c.started)
    rw [act]
    generalize (c.worker.step (logged run)).run (c.world, c.started) = r at hmove
    obtain ⟨w, s⟩ := r
    refine ⟨?_, ?_, ?_⟩
    · cases hmove with
      | start b queue hc hq => exact List.prefix_append _ _
      | _ => exact List.prefix_rfl
    · dsimp only
      split <;> omega
    · cases hmove with
      | pass t queue hc hq => exact List.subset_append_left _ _
      | _ => exact List.Subset.refl _
  · by_cases hgive : e = .giveUp
    · subst hgive
      rw [act]
      split <;> exact ⟨List.prefix_rfl, Nat.le_refl _, List.Subset.refl _⟩
    · obtain ⟨js, -, -, hpassed, hstarted, hfinished⟩ := act_outside run c hstep hgive
      rw [hpassed, hstarted, hfinished]
      exact ⟨List.prefix_rfl, Nat.le_refl _, List.Subset.refl _⟩

theorem accepting_after_of_mem {es : List (Event σ)} (hes : .shutdown ∈ es) (c : Course σ) :
    (c.after run es).worker.accepting = false := by
  obtain ⟨front, back, rfl⟩ := List.append_of_mem hes
  rw [after_append]
  exact accepting_after_closed back (c := ((c.after run front).act run .shutdown)) rfl

/-! ## How a barrier stands -/

/-- How a barrier stands that was set when some batches had been accepted, and what is told about it. -/
inductive Barrier (run : Submission → StateM σ (List Call)) (bs : List Submission) (t : Nat) (c : Course σ) :
    Option (Except RelayError Unit) → Prop where
  /-- It stands in the queue, and the batches that have not been started stand in front of it. -/
  | waits (front back : List (Job Submission)) (queue : c.worker.queue = front ++ .barrier t :: back)
    (first : .barrier t ∉ front) (fresh : t ∉ c.worker.passed) (goes : c.worker.hasStopped = false)
    (batches : bs = c.started.map (·.1) ++ front.filterMap Job.batch?) : Barrier run bs t c none
  /-- It has been passed, and the batches have been run to their end. -/
  | passed (done : List (Submission × σ)) (passed : t ∈ c.worker.passed) (batches : done.map (·.1) = bs)
    (started : done <+: c.started) (finished : done.length ≤ c.finished)
    (calls : done.flatMap (callsOf run) <+: c.worker.calls) : Barrier run bs t c (some (.ok ()))
  /-- The queue has been given up with it. -/
  | lost (queue : c.worker.queue = []) (fresh : t ∉ c.worker.passed) (stopped : c.worker.hasStopped = true)
    (closed : c.worker.accepting = false) : Barrier run bs t c (some (.error .workerShutdown))

variable {bs : List Submission} {a : Option (Except RelayError Unit)}

theorem Barrier.answer?_eq (h : c.Barrier run bs t a) : c.worker.answer? t = a := by
  unfold Worker.answer? Worker.hasPassed Worker.awaits
  cases h with
  | waits front back queue first fresh goes batches => simp [queue, fresh]
  | passed done passed => simp [passed]
  | lost queue fresh stopped closed => simp [queue, fresh]

theorem Barrier.act_of_told (h : c.Barrier run bs t a) (told : a ≠ none) (e : Event σ) :
    (c.act run e).Barrier run bs t a := by
  cases h with
  | waits => exact absurd rfl told
  | passed done passed batches started finished calls =>
    obtain ⟨hstarted, hfinished, hpassed⟩ := act_keeps run c e
    exact .passed done (hpassed passed) batches (started.trans hstarted) (Nat.le_trans finished hfinished)
      (calls.trans (calls_act run c e))
  | lost queue fresh stopped closed =>
    have hshut : c.Shut run := shut closed
    have same : c.Barrier run bs t (some (.error .workerShutdown)) := .lost queue fresh stopped closed
    cases e with
    | submit b => rwa [(hshut.submit b).2]
    | report p ms => rwa [hshut.reported]
    | flush => rwa [hshut.flushed]
    | shutdown => rwa [hshut.shutdown]
    | giveUp => rwa [act, stopped, Bool.or_true, if_pos rfl]
    | step =>
      obtain ⟨left, hleft⟩ := Worker.hasStopped_iff.1 stopped
      obtain ⟨⟨accepting, queue, consumer, calls, issued, passed⟩, world, accepted, started, finished⟩ := c
      obtain rfl : consumer = .stopped left := hleft
      cases left <;> exact .lost queue fresh rfl closed
    | change f => exact .lost queue fresh stopped closed

/-- A barrier that waits is lost when the consumer is aborted. -/
theorem Barrier.act_giveUp (h : c.Barrier run bs t none) (closed : c.worker.accepting = false) :
    (c.act run .giveUp).Barrier run bs t (some (.error .workerShutdown)) := by
  cases h with
  | waits front back queue first fresh goes batches =>
    rw [act, closed, goes, Bool.or_false, if_neg Bool.false_ne_true]
    exact .lost rfl fresh rfl closed

/-- A step starts a batch in front of a barrier that waits, or passes the barrier, or brings it nearer. -/
theorem Barrier.move (h : c.Barrier run bs t none) (order : c.InOrder run) {w : RelayWorker}
    {r : σ × List (Submission × σ)} {n : Nat} (hmove : c.worker.Move (logged run) (c.world, c.started) w r)
    (hn : c.finished ≤ n) :
    ∃ a, a ≠ some (.error .workerShutdown) ∧ Barrier run bs t ⟨w, r.1, c.accepted, r.2, n⟩ a := by
  have waits : (none : Option (Except RelayError Unit)) ≠ some (.error .workerShutdown) := by simp
  cases h with
  | waits front back queue first fresh goes batches =>
    cases hmove with
    | start b rest hc hq =>
      rw [queue] at hq
      cases front with
      | nil => cases hq
      | cons j front =>
        cases hq
        refine ⟨none, waits, .waits front back rfl (fun ht => first (List.mem_cons_of_mem _ ht)) fresh rfl ?_⟩
        show bs = (c.started ++ [(b, c.world)]).map (·.1) ++ front.filterMap Job.batch?
        rw [batches, List.map_append, List.append_assoc]
        rfl
    | pass t' rest hc hq =>
      rw [queue] at hq
      cases front with
      | nil =>
        cases hq
        -- the consumer waits, so the runs that have been started have ended and made all their calls
        have hcalls : c.worker.calls = c.started.flatMap (callsOf run) := by
          rw [← order.calls, hc, Consumer.ahead, List.append_nil]
        refine ⟨some (.ok ()), by simp, .passed c.started (List.mem_append_right _ (List.mem_singleton_self t))
          ?_ List.prefix_rfl ?_ ?_⟩
        · rw [batches, List.filterMap_nil, List.append_nil]
        · rw [order.waiting hc]
          exact hn
        · exact hcalls ▸ List.prefix_rfl
      | cons j front =>
        cases hq
        rw [List.mem_cons, not_or] at first
        refine ⟨none, waits, .waits front back rfl first.2 (fun ht => ?_)
          (Worker.hasStopped_of_waiting hc) batches⟩
        rcases List.mem_append.1 ht with ht | ht
        · exact fresh ht
        · exact first.1 (by rw [List.mem_singleton.1 ht])
    | stop hc hq =>
      rw [queue] at hq
      cases front <;> cases hq
    | call k cs hc => exact ⟨none, waits, .waits front back queue first fresh rfl batches⟩
    | finish hc => exact ⟨none, waits, .waits front back queue first fresh rfl batches⟩
    | lateCall k cs hc =>
      rw [Worker.hasStopped_iff.2 ⟨_, hc⟩] at goes
      cases goes
    | rest => exact ⟨none, waits, .waits front back queue first fresh goes batches⟩

/-- Nothing but an abort loses a barrier that waits. -/
theorem Barrier.act_waiting (h : c.Barrier run bs t none) (order : c.InOrder run)
    (he : e = .giveUp → c.worker.accepting = true) :
    ∃ a, a ≠ some (.error .workerShutdown) ∧ (c.act run e).Barrier run bs t a := by
  by_cases hstep : e = .step
  · subst hstep
    refine h.move order (Worker.step_move (logged run) c.worker (c.world, c.started)) ?_
    split <;> omega
  · refine ⟨none, nofun, ?_⟩
    by_cases hgive : e = .giveUp
    · subst hgive
      rwa [act, he rfl, Bool.true_or, if_pos rfl]
    · obtain ⟨js, hqueue, hconsumer, hpassed, hstarted, -⟩ := act_outside run c hstep hgive
      cases h with
      | waits front back queue first fresh goes batches =>
        refine .waits front (back ++ js) ?_ first ?_ ?_ ?_
        · rw [hqueue, queue, List.append_assoc]
          rfl
        · rwa [hpassed]
        · rwa [Worker.hasStopped, hconsumer]
        · rwa [hstarted]

theorem Barrier.after_of_told : ∀ (es : List (Event σ)) {c : Course σ}, c.Barrier run bs t a → a ≠ none →
    (c.after run es).Barrier run bs t a
  | [], _, h, _ => h
  | e :: es, _, h, told => Barrier.after_of_told es (h.act_of_told told e) told

/-- Of a barrier that waits it is told that it has been lost exactly if the consumer is aborted before
anything is told. -/
theorem Barrier.after_waiting : ∀ (es : List (Event σ)) {c : Course σ}, c.Barrier run bs t none →
    c.InOrder run → ∃ a, (c.after run es).Barrier run bs t a ∧
      (a = some (.error .workerShutdown) ↔ ∃ front back, es = front ++ .giveUp :: back ∧
        (c.after run front).worker.accepting = false ∧ (c.after run front).worker.answer? t = none)
  | [], _, h, _ => ⟨none, h, by simp⟩
  | e :: es, c, h, order => by
    -- an abort settles the barrier; after any other event it waits as before, or it has been passed
    by_cases aborted : e = .giveUp ∧ c.worker.accepting = false
    · obtain ⟨rfl, closed⟩ := aborted
      have hlost := Barrier.after_of_told es (h.act_giveUp closed) nofun
      exact ⟨_, hlost, fun _ => ⟨[], es, rfl, closed, h.answer?_eq⟩, fun _ => rfl⟩
    · obtain ⟨a, hne, ha⟩ := h.act_waiting order (e := e) fun he => by
        by_contra hopen
        exact aborted ⟨he, by simpa using hopen⟩
      -- this event is no abort, so the abort is among those after it
      have hsplit : (∃ front back, e :: es = front ++ .giveUp :: back ∧
          (c.after run front).worker.accepting = false ∧ (c.after run front).worker.answer? t = none) ↔
          ∃ front back, es = front ++ .giveUp :: back ∧
            ((c.act run e).after run front).worker.accepting = false ∧
            ((c.act run e).after run front).worker.answer? t = none := by
        constructor
        · rintro ⟨front, back, hes, closed, hnone⟩
          cases front with
          | nil =>
            cases hes
            exact absurd ⟨rfl, closed⟩ aborted
          | cons e' front =>
            cases hes
            exact ⟨front, back, rfl, closed, hnone⟩
        · rintro ⟨front, back, rfl, closed, hnone⟩
          exact ⟨e :: front, back, rfl, closed, hnone⟩
      rw [hsplit]
      by_cases hnone : a = none
      · subst hnone
        exact Barrier.after_waiting es ha (order.act e)
      · refine ⟨a, ha.after_of_told es hnone, fun hlost => absurd hlost hne, ?_⟩
        rintro ⟨front, back, -, -, hfront⟩
        rw [(ha.after_of_told front hnone).answer?_eq] at hfront
        exact absurd hfront hnone

/-- A barrier that waits is passed after some steps, if nothing else happens. -/
theorem Barrier.after_steps (h : c.Barrier run bs t none) (order : c.InOrder run) :
    ∃ n, (c.after run (.replicate n .step)).Barrier run bs t (some (.ok ())) := by
  -- to settle is to take steps until the queue is empty, and a barrier that waits would still stand in it
  obtain ⟨n, hn⟩ := c.settle_after run false
  have hempty : (c.after run (.replicate n .step)).worker.queue = [] := by
    have hgoes : c.worker.hasStopped = false := by
      cases h with
      | waits front back queue first fresh goes => exact goes
    rw [← Worker.settle_queue run c.worker c.world hgoes, hn]
  obtain ⟨a, ha, hlost⟩ := h.after_waiting (.replicate n .step) order
  refine ⟨n, ?_⟩
  cases ha with
  | waits front back queue =>
    rw [hempty] at queue
    cases front <;> cases queue
  | passed done passed batches started finished calls => exact .passed done passed batches started finished calls
  | lost =>
    obtain ⟨front, back, hsteps, -⟩ := hlost.1 rfl
    have hmem : Event.giveUp ∈ List.replicate n (Event.step : Event σ) := by
      rw [hsteps]
      exact List.mem_append_right _ List.mem_cons_self
    cases List.eq_of_mem_replicate hmem

/-! ## What is told -/

/-- What one who sets a barrier is told when some more has happened, if the wait is over. -/
def flushed? (run : Submission → StateM σ (List Call)) (c : Course σ) (later : List (Event σ)) :
    Option (Except RelayError Unit) :=
  match c.worker.setBarrier with
  | .error e => some (.error e)
  | .ok (t, _) => (c.after run (.flush :: later)).worker.answer? t

theorem flushed?_of_closed (closed : c.worker.accepting = false) (later : List (Event σ)) :
    c.flushed? run later = some (.error .workerShutdown) := by
  unfold flushed? Worker.setBarrier Worker.enqueue
  rw [closed]
  rfl

theorem flushed?_of_open (ha : c.worker.accepting = true) (later : List (Event σ)) :
    c.flushed? run later = (c.after run (.flush :: later)).worker.answer? c.worker.issued := by
  unfold flushed? Worker.setBarrier Worker.enqueue
  rw [ha]
  rfl

/-- A barrier that is accepted waits behind all batches that were accepted before. -/
theorem act_flush_waits (ha : c.worker.accepting = true) (hw : c.Whole) (numbered : c.worker.Numbered) :
    (c.act run .flush).Barrier run c.accepted c.worker.issued none := by
  have goes : c.worker.hasStopped = false := hw.hasStopped_eq_false ha
  have batches := hw.batches
  obtain ⟨⟨accepting, queue, consumer, calls, issued, passed⟩, world, accepted, started, finished⟩ := c
  obtain rfl : accepting = true := ha
  exact .waits queue [] rfl (fun ht => Nat.lt_irrefl _ (numbered.queued _ ht))
    (fun ht => Nat.lt_irrefl _ (numbered.passed _ ht)) goes batches

theorem flushed?_of_stands (ha : c.worker.accepting = true) {later more : List (Event σ)}
    (h : ((c.after run (.flush :: later)).after run more).Barrier run bs c.worker.issued a) :
    c.flushed? run (later ++ more) = a := by
  have happend : c.after run (.flush :: (later ++ more)) = (c.after run (.flush :: later)).after run more :=
    after_append (.flush :: later) more
  rw [flushed?_of_open ha, happend, h.answer?_eq]

/-- A barrier that is accepted stands as is told to the one who waits for it. -/
theorem flush_stands (order : c.InOrder run) (ha : c.worker.accepting = true) (hw : c.Whole)
    (numbered : c.worker.Numbered) (later : List (Event σ)) :
    (c.after run (.flush :: later)).Barrier run c.accepted c.worker.issued (c.flushed? run later) ∧
      (c.flushed? run later = some (.error .workerShutdown) ↔ ∃ front back, later = front ++ .giveUp :: back ∧
        (c.after run (.flush :: front)).worker.accepting = false ∧ c.flushed? run front = none) := by
  have waits : (c.act run .flush).Barrier run c.accepted c.worker.issued none := act_flush_waits ha hw numbered
  obtain ⟨a, stands, hlost⟩ := waits.after_waiting later (order.act .flush)
  have htold : c.flushed? run later = a := (flushed?_of_open ha later).trans stands.answer?_eq
  rw [htold, hlost]
  refine ⟨stands, ?_⟩
  simp only [flushed?_of_open ha]
  rfl

theorem flush_after (held : Bool) (c : Course σ) : ∃ n, (c.worker.flush run held).run c.world =
    let told := c.after run (.flush :: .replicate n .step)
    ((c.flushed? run (.replicate n .step), told.worker), told.world) := by
  cases ha : c.worker.accepting with
  | false =>
    refine ⟨0, ?_⟩
    have hshut : c.Shut run := shut ha
    have hsame : c.after run (.flush :: .replicate 0 .step) = c := hshut.flushed
    rw [hshut.flush, flushed?_of_closed ha, hsame]
    rfl
  | true =>
    have hset : c.worker.setBarrier = .ok (c.worker.issued, (c.act run .flush).worker) := by
      obtain ⟨⟨accepting, queue, consumer, calls, issued, passed⟩, world, accepted, started, finished⟩ := c
      obtain rfl : accepting = true := ha
      rfl
    obtain ⟨n, hn⟩ := Worker.flush_steps run held c.worker _ _ c.world hset
    refine ⟨n, ?_⟩
    rw [hn, flushed?_of_open ha]
    have hworld : (c.act run .flush).world = c.world := by
      obtain ⟨⟨accepting, queue, consumer, calls, issued, passed⟩, world, accepted, started, finished⟩ := c
      cases accepting <;> rfl
    have hsteps := (c.act run .flush).after_steps run n
    rw [hworld] at hsteps
    rw [hsteps]
    rfl

/-! ## Courses without barriers -/

/-- The course without its barriers. -/
def unbarred (c : Course σ) : Course σ :=
  { c with worker := { c.worker with queue := c.worker.batches.map .batch, issued := 0, passed := [] } }

theorem act_flush_unbarred (c : Course σ) : (c.act run .flush).unbarred = c.unbarred := by
  obtain ⟨⟨accepting, queue, consumer, calls, issued, passed⟩, world, accepted, started, finished⟩ := c
  cases accepting with
  | false => rfl
  | true =>
    simp [act, enter, Worker.setBarrier, Worker.enqueue, Except.map, unbarred, Worker.batches, Job.batch?]

/-- A step passes a barrier, which changes nothing else, or it is the same step without barriers. -/
theorem act_step_unbarred (run : Submission → StateM σ (List Call)) (c : Course σ) :
    (c.act run .step).unbarred = c.unbarred ∨ (c.act run .step).unbarred = c.unbarred.act run .step := by
  obtain ⟨⟨accepting, queue, consumer, calls, issued, passed⟩, world, accepted, started, finished⟩ := c
  cases consumer with
  | waiting =>
    cases queue with
    | nil => cases accepting <;> exact .inr rfl
    | cons j queue =>
      cases j with
      | batch b => exact .inr rfl
      | barrier t => exact .inl rfl
  | running cs => cases cs <;> exact .inr rfl
  | stopped cs => cases cs <;> exact .inr rfl

theorem act_unbarred {e : Event σ} (hflush : e.isFlush = false) (hstep : e.isStep = false) (c : Course σ) :
    (c.act run e).unbarred = c.unbarred.act run e := by
  obtain ⟨⟨accepting, queue, consumer, calls, issued, passed⟩, world, accepted, started, finished⟩ := c
  cases e with
  | submit b =>
    cases accepting with
    | false => rfl
    | true => simp [act, enter, Worker.submit, Worker.enqueue, unbarred, Worker.batches, Job.batch?]
  | report p ms =>
    cases ms with
    | nil => rfl
    | cons m ms =>
      cases accepting with
      | false => rfl
      | true =>
        simp [act, enter, Worker.report, Worker.submit, Worker.enqueue, unbarred, Worker.batches, Job.batch?]
  | flush => cases hflush
  | shutdown => rfl
  | giveUp => cases accepting <;> cases consumer <;> rfl
  | step => cases hstep
  | change f => rfl

/-- Without barriers, and without the steps that pass them, a course comes to the same. -/
theorem after_unbarred : ∀ (es : List (Event σ)) (c : Course σ), ∃ es', es'.Sublist es ∧
    es'.filter (fun e => !e.isStep) = es.filter (fun e => !e.isStep && !e.isFlush) ∧
    (c.after run es).unbarred = c.unbarred.after run es'
  | [], c => ⟨[], .slnil, rfl, rfl⟩
  | e :: es, c => by
    obtain ⟨es', hsub, hfilter, hafter⟩ := after_unbarred es (c.act run e)
    have hcons : c.after run (e :: es) = (c.act run e).after run es := rfl
    rw [hcons, hafter]
    cases hflush : e.isFlush with
    | true =>
      have he : e = .flush := by
        cases e with
        | flush => rfl
        | _ => cases hflush
      subst he
      refine ⟨es', hsub.cons _, ?_, by rw [act_flush_unbarred]⟩
      rw [hfilter, List.filter_cons_of_neg (by simp [Event.isFlush])]
    | false =>
      cases hstep : e.isStep with
      | true =>
        have he : e = .step := by
          cases e with
          | step => rfl
          | _ => cases hstep
        subst he
        rcases act_step_unbarred run c with h | h
        · exact ⟨es', hsub.cons _, by simpa [Event.isStep] using hfilter, by rw [h]⟩
        · exact ⟨.step :: es', hsub.cons_cons _, by simpa [Event.isStep] using hfilter, by rw [h]; rfl⟩
      | false =>
        refine ⟨e :: es', hsub.cons_cons _, ?_, by rw [act_unbarred hflush hstep]; rfl⟩
        simpa [hflush, hstep] using hfilter

end Course

/-- Waiting for what has been submitted, at any point of any course of the worker of a relay: what has happened
if it is told that all is done, when it is told that the worker is shut down, that either is told for good, and
that the consumer comes to it. To wait at once is to let the consumer take steps. Without the waits a course
has the same runs and calls. -/
theorem relay_flush (h : Host σ) (x : Expander) (w : World σ) (before : List (Event (World σ))) :
    let relay := Submission.relay h x
    let c := (Course.start w).after relay before
    (∀ later,
      let c' := c.after relay (.flush :: later)
      (c.flushed? relay later = some (.ok ()) → ∃ done, done.map (·.1) = c.accepted ∧ done <+: c'.started ∧
        done.length ≤ c'.finished ∧ done.flatMap (callsOf relay) <+: c'.worker.calls ∧
        ∀ r ∈ done, (∃ m ∈ r.1.mutations, r.1.classify m = .failed) → callsOf relay r = []) ∧
      (c.flushed? relay later = some (.error .workerShutdown) ↔ Event.shutdown ∈ before ∨
        ∃ front back, later = front ++ .giveUp :: back ∧
          (c.after relay (.flush :: front)).worker.accepting = false ∧ c.flushed? relay front = none) ∧
      (∀ a, c.flushed? relay later = some a → ∀ more, c.flushed? relay (later ++ more) = some a) ∧
      (c.flushed? relay later = none → ∃ n, c.flushed? relay (later ++ .replicate n .step) = some (.ok ()))) ∧
    (∀ held, ∃ n, (c.worker.flush relay held).run c.world =
      let told := c.after relay (.flush :: .replicate n .step)
      ((c.flushed? relay (.replicate n .step), told.worker), told.world)) ∧
    ∃ kept, kept.Sublist before ∧
      kept.filter (fun e => !e.isStep) = before.filter (fun e => !e.isStep && !e.isFlush) ∧
      c.unbarred = (Course.start w).after relay kept := by
  intro relay c
  have order : c.InOrder relay := (Course.start_inOrder w).after before
  refine ⟨fun later => ?_, fun held => Course.flush_after held c, Course.after_unbarred before (Course.start w)⟩
  by_cases first : Event.shutdown ∈ before
  · -- the wait was refused
    have closed : c.worker.accepting = false := Course.accepting_after_of_mem first (Course.start w)
    have htold (later : List (Event (World σ))) : c.flushed? relay later = some (.error .workerShutdown) :=
      Course.flushed?_of_closed closed later
    refine ⟨fun hok => ?_, ⟨fun _ => .inl first, fun _ => htold later⟩, fun a ha more => ?_, fun hnone => ?_⟩
    · rw [htold] at hok
      cases hok
    · rw [htold, ← ha, htold]
    · rw [htold] at hnone
      cases hnone
  · have isOpen : c.worker.accepting = true := Course.accepting_after_open before first
    have whole : c.Whole := (Course.start_whole w).after_open before (Course.start_inOrder w) first rfl
    obtain ⟨stands, hlost⟩ := Course.flush_stands order isOpen whole
      (Course.after_numbered before (Course.start_numbered w)) later
    refine ⟨fun hok => ?_, ?_, fun a ha more => ?_, fun hnone => ?_⟩
    · rw [hok] at stands
      cases stands with
      | passed done passed batches started finished calls =>
        exact ⟨done, batches, started, finished, calls, fun r _ => (callsOf_relay h x r.1 r.2).1⟩
    · rw [hlost]
      simp only [first, false_or]
    · rw [ha] at stands
      exact Course.flushed?_of_stands isOpen (stands.after_of_told more (Option.some_ne_none a))
    · rw [hnone] at stands
      obtain ⟨n, hn⟩ := stands.after_steps (order.after (.flush :: later))
      exact ⟨n, Course.flushed?_of_stands isOpen hn⟩

/-- Two waits after two batches, of which the first has been started: if the worker is shut down and its
consumer aborted, the second wait ends in vain, and else both batches are run. -/
theorem relay_flush_twice :
    let relay := Submission.relay Registry.host (.ofInclusion .all)
    let c := (Course.start ⟨.sample, .empty []⟩).after relay [.submit .sample, .flush, .submit .sample, .step]
    c.flushed? relay [.shutdown, .giveUp] = some (.error .workerShutdown) ∧
    ∃ (n : Nat) (done : List (Submission × World Registry)),
      c.flushed? relay ([] ++ .replicate n .step) = some (.ok ()) ∧ done.map (·.1) = c.accepted ∧ done.length = 2 := by
  intro relay c
  obtain ⟨told, -⟩ := relay_flush Registry.host (.ofInclusion .all) ⟨.sample, .empty []⟩
    [.submit .sample, .flush, .submit .sample, .step]
  refine ⟨(told [.shutdown, .giveUp]).2.1.2 (.inr ⟨[.shutdown], [], rfl, rfl, rfl⟩), ?_⟩
  obtain ⟨n, hn⟩ := (told []).2.2.2 rfl
  obtain ⟨done, hdone, -⟩ := (told ([] ++ .replicate n .step)).1 hn
  have hlength : done.length = c.accepted.length := by
    have hmap := congrArg List.length hdone
    rwa [List.length_map] at hmap
  exact ⟨n, done, hn, hdone, hlength⟩

end ChangeRelay
