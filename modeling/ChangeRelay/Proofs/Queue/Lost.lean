/-
Batches that are lost. A batch of which one mutation cannot be classified makes no call, wherever that mutation
stands, and leaves nothing behind in the worker: a course goes on as if the batch had been submitted
without mutations (`Course.Abreast`). All that is told to those who submit and wait is the same, and so are
the calls of all other batches, if their runs see the same world (`Course.Abreast.after`).

What a lost batch may leave behind is in the world only, for its mutations before the one that fails have been
asked about. A host that is indifferent to what it is asked keeps no trace of it
(`Course.Abreast.after_alike`). One that disposes a project after so many questions does, and then the calls
of the next batch are lost too.
-/
import ChangeRelay.Proofs.Queue.Barriers
import ChangeRelay.Proofs.Relay.Runs

namespace ChangeRelay

variable {σ : Type}

/-! ## Batches and events -/

/-- One of the mutations of a batch cannot be classified. -/
def Submission.IsLost (b : Submission) : Prop := ∃ m ∈ b.mutations, b.classify m = .failed

/-- Two batches are the same, or the first is lost and the second has no mutations. -/
def Submission.SameButLost (b b' : Submission) : Prop := b' = b ∨ b.IsLost ∧ b'.mutations = []

/-- The same happens, but that a batch that is lost has no mutations; changes keep worlds alike. -/
inductive Event.SameButLost (like : σ → σ → Prop) : Event σ → Event σ → Prop where
  | submit {b b' : Submission} (same : b.SameButLost b') : SameButLost like (.submit b) (.submit b')
  | report (p : Phase) (ms : List Mutation) : SameButLost like (.report p ms) (.report p ms)
  | flush : SameButLost like .flush .flush
  | shutdown : SameButLost like .shutdown .shutdown
  | giveUp : SameButLost like .giveUp .giveUp
  | step : SameButLost like .step .step
  | change {f g : σ → σ} (keep : ∀ s t, like s t → like (f s) (g t)) : SameButLost like (.change f) (.change g)

/-- The same stands in two queues, but for batches that are lost. -/
inductive Job.SameButLost : Job Submission → Job Submission → Prop where
  | batch {b b' : Submission} (same : b.SameButLost b') : SameButLost (.batch b) (.batch b')
  | barrier (t : Nat) : SameButLost (.barrier t) (.barrier t)

namespace Course

variable {run : Submission → StateM σ (List Call)} {c c' : Course σ} {like : σ → σ → Prop} {e e' : Event σ}

theorem callsOf_eq (silent : ∀ b s, b.IsLost ∨ b.mutations = [] → callsOf run (b, s) = []) {b b' : Submission}
    {s s' : σ} (same : b.SameButLost b') (hworld : ¬ b.IsLost → s = s') :
    callsOf run (b, s) = callsOf run (b', s') := by
  by_cases lost : b.IsLost
  · rw [silent b s (.inl lost)]
    rcases same with rfl | ⟨-, hnil⟩
    · rw [silent b' s' (.inl lost)]
    · rw [silent b' s' (.inr hnil)]
  · rcases same with rfl | ⟨hlost, -⟩
    · rw [hworld lost]
    · exact absurd hlost lost

/-! ## Courses side by side -/

/-- All that is told of two courses is the same: the calls that have been made, those of each run, whether
something is accepted, and what is told about every barrier. -/
structure TellsAs (run : Submission → StateM σ (List Call)) (c c' : Course σ) : Prop where
  calls : c.worker.calls = c'.worker.calls
  runs : List.Forall₂ (fun r r' => r.1.SameButLost r'.1 ∧ callsOf run r = callsOf run r') c.started c'.started
  isRunning : c.worker.isRunning = c'.worker.isRunning
  submit : ∀ b, (c.worker.submit b).map (fun _ => ()) = (c'.worker.submit b).map (fun _ => ())
  report : ∀ p ms, (c.worker.report p ms).map (fun _ => ()) = (c'.worker.report p ms).map (fun _ => ())
  setBarrier : c.worker.setBarrier.map (·.1) = c'.worker.setBarrier.map (·.1)
  answer? : ∀ t, c.worker.answer? t = c'.worker.answer? t

/-- Two courses are at the same point, but for batches that are lost. -/
structure Abreast (run : Submission → StateM σ (List Call)) (c c' : Course σ) : Prop where
  accepting : c.worker.accepting = c'.worker.accepting
  queue : List.Forall₂ Job.SameButLost c.worker.queue c'.worker.queue
  consumer : c.worker.consumer = c'.worker.consumer
  calls : c.worker.calls = c'.worker.calls
  issued : c.worker.issued = c'.worker.issued
  passed : c.worker.passed = c'.worker.passed
  started : List.Forall₂ (fun r r' => r.1.SameButLost r'.1 ∧ callsOf run r = callsOf run r') c.started c'.started

theorem start_abreast (s s' : σ) : (start s).Abreast run (start s') :=
  ⟨rfl, .nil, rfl, rfl, rfl, rfl, .nil⟩

theorem Abreast.awaits_eq (h : c.Abreast run c') (t : Nat) : c.worker.awaits t = c'.worker.awaits t := by
  have any_eq : ∀ {queue queue' : List (Job Submission)}, List.Forall₂ Job.SameButLost queue queue' →
      Worker.awaits { c.worker with queue := queue } t = Worker.awaits { c'.worker with queue := queue' } t := by
    intro queue queue' hqueue
    unfold Worker.awaits
    induction hqueue with
    | nil => rfl
    | cons hj _ ih => cases hj <;> rw [List.any_cons, List.any_cons, ih]
  exact any_eq h.queue

theorem Abreast.tellsAs (h : c.Abreast run c') : c.TellsAs run c' where
  calls := h.calls
  runs := h.started
  isRunning := h.accepting
  submit b := by
    unfold Worker.submit Worker.enqueue
    rw [h.accepting]
    split <;> rfl
  report p ms := by
    unfold Worker.report Worker.submit Worker.enqueue
    rw [h.accepting]
    split
    · rfl
    · split <;> rfl
  setBarrier := by
    unfold Worker.setBarrier Worker.enqueue
    rw [h.accepting, h.issued]
    split <;> rfl
  answer? t := by
    unfold Worker.answer? Worker.hasPassed
    rw [h.passed, h.awaits_eq]

theorem Abreast.enqueue (h : c.Abreast run c') {j j' : Job Submission} (hj : j.SameButLost j')
    {bs bs' : List Submission} :
    (c.enter bs (c.worker.enqueue j)).Abreast run (c'.enter bs' (c'.worker.enqueue j')) := by
  unfold Worker.enqueue
  rw [h.accepting]
  split
  · exact ⟨rfl, List.rel_append h.queue (.cons hj .nil), h.consumer, h.calls, h.issued, h.passed, h.started⟩
  · exact h

theorem Abreast.flush (h : c.Abreast run c') : (c.act run .flush).Abreast run (c'.act run .flush) := by
  rw [act, act]
  unfold Worker.setBarrier Worker.enqueue
  rw [h.accepting, h.issued]
  split
  · exact ⟨rfl, List.rel_append h.queue (.cons (.barrier _) .nil), h.consumer, h.calls, rfl, h.passed, h.started⟩
  · exact h

/-- A consumer that waits starts the run of the batch that is next. -/
theorem act_step_start (run : Submission → StateM σ (List Call)) (c : Course σ) {b : Submission}
    {queue : List (Job Submission)} (hc : c.worker.consumer = .waiting) (hq : c.worker.queue = .batch b :: queue) :
    c.act run .step =
      ⟨{ c.worker with queue := queue, consumer := .running (callsOf run (b, c.world)) },
        ((run b).run c.world).2, c.accepted, c.started ++ [(b, c.world)], c.finished⟩ := by
  obtain ⟨⟨accepting, _, _, calls, issued, passed⟩, world, accepted, started, finished⟩ := c
  obtain rfl : _ = Consumer.waiting := hc
  obtain rfl : _ = Job.batch b :: queue := hq
  rfl

/-- The consumers of two courses abreast start a run each, or they take the same step, which leaves the worlds
as they are. -/
theorem Abreast.step_cases (h : c.Abreast run c') :
    (∃ b b' queue queue', c.worker.consumer = .waiting ∧ c.worker.queue = .batch b :: queue ∧
      c'.worker.queue = .batch b' :: queue' ∧ b.SameButLost b' ∧ List.Forall₂ Job.SameButLost queue queue') ∨
    (c.act run .step).Abreast run (c'.act run .step) ∧ (c.act run .step).world = c.world ∧
      (c'.act run .step).world = c'.world := by
  obtain ⟨⟨accepting, queue, consumer, calls, issued, passed⟩, world, accepted, started, finished⟩ := c
  obtain ⟨⟨_, queue', _, _, _, _⟩, world', accepted', started', finished'⟩ := c'
  obtain ⟨haccepting, hqueue, hconsumer, hcalls, hissued, hpassed, hstarted⟩ := h
  dsimp only at haccepting hqueue hconsumer hcalls hissued hpassed hstarted
  subst haccepting hconsumer hcalls hissued hpassed
  -- the queue is looked at by a consumer that waits only, and nothing else may differ
  cases consumer with
  | waiting =>
    cases hqueue with
    | nil => cases accepting <;> exact .inr ⟨⟨rfl, .nil, rfl, rfl, rfl, rfl, hstarted⟩, rfl, rfl⟩
    | cons hj hqueue =>
      cases hj with
      | barrier t => exact .inr ⟨⟨rfl, hqueue, rfl, rfl, rfl, rfl, hstarted⟩, rfl, rfl⟩
      | batch same => exact .inl ⟨_, _, _, _, rfl, rfl, rfl, same, hqueue⟩
  | running cs => cases cs <;> exact .inr ⟨⟨rfl, hqueue, rfl, rfl, rfl, rfl, hstarted⟩, rfl, rfl⟩
  | stopped cs => cases cs <;> exact .inr ⟨⟨rfl, hqueue, rfl, rfl, rfl, rfl, hstarted⟩, rfl, rfl⟩

/-- A step leaves two courses abreast, if runs that begin with it make the same calls. -/
theorem Abreast.step (h : c.Abreast run c')
    (hcalls : ∀ b b' queue queue', c.worker.consumer = .waiting → c.worker.queue = .batch b :: queue →
      c'.worker.queue = .batch b' :: queue' → b.SameButLost b' →
      callsOf run (b, c.world) = callsOf run (b', c'.world)) :
    (c.act run .step).Abreast run (c'.act run .step) := by
  rcases h.step_cases with ⟨b, b', queue, queue', hc, hq, hq', same, hqueue⟩ | ⟨habreast, -, -⟩
  · have hrun := hcalls b b' queue queue' hc hq hq' same
    rw [act_step_start run c hc hq, act_step_start run c' (h.consumer ▸ hc) hq']
    exact ⟨h.accepting, hqueue, congrArg Consumer.running hrun, h.calls, h.issued, h.passed,
      List.rel_append h.started (.cons ⟨same, hrun⟩ .nil)⟩
  · exact habreast

/-- What happens to two courses abreast, the same but for batches that are lost, leaves them abreast, if runs
that begin with it make the same calls. -/
theorem Abreast.act (h : c.Abreast run c') (he : e.SameButLost like e')
    (hcalls : ∀ b b' queue queue', e = .step → c.worker.consumer = .waiting →
      c.worker.queue = .batch b :: queue → c'.worker.queue = .batch b' :: queue' → b.SameButLost b' →
      callsOf run (b, c.world) = callsOf run (b', c'.world)) :
    (c.act run e).Abreast run (c'.act run e') := by
  cases he with
  | submit same => exact h.enqueue (.batch same)
  | report p ms =>
    rw [Course.act, Course.act]
    unfold Worker.report
    split
    · exact ⟨h.accepting, h.queue, h.consumer, h.calls, h.issued, h.passed, h.started⟩
    · exact h.enqueue (.batch (.inl rfl))
  | flush => exact h.flush
  | shutdown => exact ⟨rfl, h.queue, h.consumer, h.calls, h.issued, h.passed, h.started⟩
  | giveUp =>
    have hstopped : c.worker.hasStopped = c'.worker.hasStopped := by
      unfold Worker.hasStopped
      rw [h.consumer]
    rw [Course.act, Course.act, h.accepting, hstopped]
    split
    · exact h
    · have hahead : Consumer.stopped c.worker.consumer.ahead = .stopped c'.worker.consumer.ahead := by
        rw [h.consumer]
      exact ⟨h.accepting, .nil, hahead, h.calls, h.issued, h.passed, h.started⟩
  | step => exact h.step fun b b' queue queue' => hcalls b b' queue queue' rfl
  | change => exact ⟨h.accepting, h.queue, h.consumer, h.calls, h.issued, h.passed, h.started⟩

theorem started_after (run : Submission → StateM σ (List Call)) : ∀ (es : List (Event σ)) (c : Course σ),
    c.started <+: (c.after run es).started
  | [], _ => List.prefix_rfl
  | e :: es, c => (act_keeps run c e).1.trans (started_after run es (c.act run e))

theorem started_after_step (run : Submission → StateM σ (List Call)) (es : List (Event σ)) (c : Course σ)
    {b : Submission} {queue : List (Job Submission)} (hc : c.worker.consumer = .waiting)
    (hq : c.worker.queue = .batch b :: queue) :
    c.started ++ [(b, c.world)] <+: (c.after run (.step :: es)).started := by
  have hstep : (c.act run .step).started = c.started ++ [(b, c.world)] := by rw [act_step_start run c hc hq]
  exact hstep ▸ started_after run es (c.act run .step)

/-- Courses stay abreast if the runs of batches that are not lost see the same world. -/
theorem Abreast.after (silent : ∀ b s, b.IsLost ∨ b.mutations = [] → callsOf run (b, s) = []) :
    ∀ (es es' : List (Event σ)) {c c' : Course σ}, c.Abreast run c' →
      List.Forall₂ (Event.SameButLost like) es es' →
      (∀ r ∈ (c.after run es).started.zip (c'.after run es').started, ¬ r.1.1.IsLost → r.1.2 = r.2.2) →
      (c.after run es).Abreast run (c'.after run es')
  | _, _, _, _, h, .nil, _ => h
  | e :: es, e' :: es', c, c', h, .cons he hes, hworld => by
    have step : (c.act run e).Abreast run (c'.act run e') := by
      refine h.act he fun b b' queue queue' hstep hc hq hq' same => callsOf_eq silent same ?_
      subst hstep
      cases he
      -- the two runs that begin here are at the same place among those that have been started in the end
      obtain ⟨more, hmore⟩ := started_after_step run es c hc hq
      obtain ⟨more', hmore'⟩ := started_after_step run es' c' (h.consumer ▸ hc) hq'
      refine hworld ((b, c.world), (b', c'.world)) ?_
      rw [← hmore, ← hmore', List.append_assoc, List.append_assoc, List.zip_append h.started.length_eq]
      exact List.mem_append_right _ List.mem_cons_self
    exact Abreast.after silent es es' step hes hworld

theorem enter_world (c : Course σ) (bs : List Submission) (r : Except RelayError RelayWorker) :
    (c.enter bs r).world = c.world := by
  cases r <;> rfl

theorem Abreast.act_world (h : c.Abreast run c') (hworld : like c.world c'.world) (he : e.SameButLost like e')
    (hrun : ∀ b b' s s', b.SameButLost b' → like s s' → like ((run b).run s).2 ((run b').run s').2) :
    like (c.act run e).world (c'.act run e').world := by
  cases he with
  | submit | report | flush =>
    rw [Course.act, Course.act, enter_world, enter_world]
    exact hworld
  | shutdown => exact hworld
  | giveUp =>
    rw [Course.act, Course.act]
    split <;> split <;> exact hworld
  | step =>
    rcases h.step_cases with ⟨b, b', queue, queue', hc, hq, hq', same, -⟩ | ⟨-, hleft, hright⟩
    · rw [act_step_start run c hc hq, act_step_start run c' (h.consumer ▸ hc) hq']
      exact hrun b b' _ _ same hworld
    · rw [hleft, hright]
      exact hworld
  | change keep => exact keep _ _ hworld

/-- Courses stay abreast in worlds that stay alike, if batches come to the same in such worlds. -/
theorem Abreast.after_alike
    (hrun : ∀ b b' s s', b.SameButLost b' → like s s' →
      callsOf run (b, s) = callsOf run (b', s') ∧ like ((run b).run s).2 ((run b').run s').2) :
    ∀ (es es' : List (Event σ)) {c c' : Course σ}, c.Abreast run c' → like c.world c'.world →
      List.Forall₂ (Event.SameButLost like) es es' → (c.after run es).Abreast run (c'.after run es')
  | _, _, _, _, h, _, .nil => h
  | e :: es, e' :: es', c, c', h, hworld, .cons he hes => by
    refine Abreast.after_alike hrun es es' (h.act he ?_) (h.act_world hworld he ?_) hes
    · exact fun b b' _ _ _ _ _ _ same => (hrun b b' _ _ same hworld).1
    · exact fun b b' s s' same hss' => (hrun b b' s s' same hss').2

end Course

/-! ## Batches of a relay -/

section

variable {h : Host σ} {x : Expander}

/-- A batch that is lost makes no call, and neither does one without mutations. -/
theorem relay_silent (b : Submission) (w : World σ) (hb : b.IsLost ∨ b.mutations = []) :
    callsOf (Submission.relay h x) (b, w) = [] := by
  rcases hb with lost | hnil
  · exact (callsOf_relay h x b w).1 lost
  · obtain ⟨ms, classify⟩ := b
    obtain rfl : ms = [] := hnil
    rfl

/-- Two worlds differ in the state of the host only, and these states are alike. -/
def World.Alike (like : σ → σ → Prop) (w w' : World σ) : Prop := like w.host w'.host ∧ w.disk = w'.disk

/-- Batches come to the same in worlds that are alike, and leave them alike, if the host is indifferent. -/
theorem relay_alike {like : σ → σ → Prop} (hh : h.Indifferent like) (b b' : Submission) (w w' : World σ)
    (same : b.SameButLost b') (hw : World.Alike like w w') :
    callsOf (Submission.relay h x) (b, w) = callsOf (Submission.relay h x) (b', w') ∧
      World.Alike like ((Submission.relay h x b).run w).2 ((Submission.relay h x b').run w').2 := by
  obtain ⟨hhost, hdisk⟩ := hw
  obtain ⟨s, d⟩ := w
  obtain ⟨s', _⟩ := w'
  obtain rfl : d = _ := hdisk
  have hrun := hh.run d x b.classify b.mutations hhost b'.classify b'.mutations
  refine ⟨?_, hrun.2, rfl⟩
  rcases same with rfl | ⟨lost, hnil⟩
  · exact congrArg (fun o? : Option Outcome => (o?.map (·.calls)).getD []) hrun.1
  · rw [relay_silent b _ (.inl lost), relay_silent b' _ (.inr hnil)]

end

/-- A batch that is lost makes no call, whatever its mutations before the one that cannot be classified come to.
Two courses that are the same but that in the second each lost batch has no mutations are told alike at every
point, if the runs of the other batches see the same world in both, or if the host is indifferent to what it
is asked and the worlds are alike at the start and change alike. -/
theorem relay_losesAlone (h : Host σ) (x : Expander) (w w' : World σ) (es es' : List (Event (World σ))) :
    let relay := Submission.relay h x
    let c := (Course.start w).after relay es
    let c' := (Course.start w').after relay es'
    (∀ b v, b.IsLost → callsOf relay (b, v) = []) ∧
    (List.Forall₂ (Event.SameButLost fun _ _ => True) es es' →
      (∀ r ∈ c.started.zip c'.started, ¬ r.1.1.IsLost → r.1.2 = r.2.2) → c.TellsAs relay c') ∧
    ∀ like, h.Indifferent like → World.Alike like w w' →
      List.Forall₂ (Event.SameButLost (World.Alike like)) es es' → c.TellsAs relay c' := by
  intro relay c c'
  refine ⟨fun b v lost => relay_silent b v (.inl lost), fun hes hworld => ?_, fun like hh hw hes => ?_⟩
  · exact ((Course.start_abreast w w').after relay_silent es es' hes hworld).tellsAs
  · exact ((Course.start_abreast w w').after_alike (relay_alike hh) es es' hw hes).tellsAs

/-- A batch that is lost at its second mutation. -/
def Submission.lost : Submission where
  mutations := [.modified (.file ⟨[47, 119, 47, 97]⟩), .created (.file ⟨[47, 119, 47, 98]⟩)]
  classify
    | .created _ => .failed
    | m => Phase.settled.classifier m

theorem Submission.isLost_lost : Submission.lost.IsLost := ⟨_, List.mem_cons_of_mem _ List.mem_cons_self, rfl⟩

theorem Event.sameButLost_steps (like : σ → σ → Prop) (n : Nat) :
    List.Forall₂ (Event.SameButLost like) (.replicate n .step) (.replicate n .step) :=
  List.forall₂_same.2 fun _ he => List.eq_of_mem_replicate he ▸ .step

/-- Between two other batches a batch is lost. The host that counts questions has been asked more often, but the
same is told. -/
theorem relay_losesAlone_between :
    let relay := Submission.relay WatchedRegistry.host (.ofInclusion .all)
    let w : World WatchedRegistry := ⟨.plain .sample, .empty []⟩
    let events (b : Submission) : List (Event (World WatchedRegistry)) :=
      [.submit .sample, .submit b, .submit .sample, .flush] ++ .replicate 9 .step
    let c := (Course.start w).after relay (events .lost)
    let c' := (Course.start w).after relay (events { Submission.lost with mutations := [] })
    c.TellsAs relay c' ∧ c.worker.calls.length = 2 ∧ c.worker.answer? 0 = some (.ok ()) ∧
      c'.world.host.checks < c.world.host.checks := by
  intro relay w events c c'
  obtain ⟨-, -, tells⟩ := relay_losesAlone WatchedRegistry.host (.ofInclusion .all) w w (events .lost)
    (events { Submission.lost with mutations := [] })
  have alike : World.Alike WatchedRegistry.Alike w w := ⟨⟨rfl, rfl, rfl, rfl⟩, rfl⟩
  refine ⟨tells _ watchedRegistry_indifferent alike (List.rel_append ?_ (Event.sameButLost_steps _ 9)),
    by decide +kernel⟩
  refine .cons (.submit (.inl rfl)) (.cons (.submit (.inr ⟨Submission.isLost_lost, rfl⟩)) ?_)
  exact .cons (.submit (.inl rfl)) (.cons .flush .nil)

/-- A host may dispose a project at its fourth question. Three are asked about the first mutation of a batch that
is lost, and so the next batch finds the project disposed and makes no call; had there been no mutations, it
would have made one. -/
theorem lost_not_alone :
    let relay := Submission.relay WatchedRegistry.host (.ofInclusion .all)
    let w : World WatchedRegistry := ⟨{ WatchedRegistry.plain .sample with closing := some (4, ⟨"p"⟩) }, .empty []⟩
    let events (b : Submission) : List (Event (World WatchedRegistry)) :=
      [.submit b, .submit .sample, .flush] ++ .replicate 9 .step
    let c := (Course.start w).after relay (events .lost)
    let c' := (Course.start w).after relay (events { Submission.lost with mutations := [] })
    List.Forall₂ (Event.SameButLost Eq) (events .lost) (events { Submission.lost with mutations := [] }) ∧
      c.worker.answer? 0 = some (.ok ()) ∧ c'.worker.answer? 0 = some (.ok ()) ∧
      c.worker.calls.length = 0 ∧ c'.worker.calls.length = 1 ∧ ¬ c.TellsAs relay c' := by
  intro relay w events c c'
  have hc : c.worker.answer? 0 = some (.ok ()) ∧ c.worker.calls.length = 0 := by decide +kernel
  have hc' : c'.worker.answer? 0 = some (.ok ()) ∧ c'.worker.calls.length = 1 := by decide +kernel
  refine ⟨List.rel_append ?_ (Event.sameButLost_steps _ 9), hc.1, hc'.1, hc.2, hc'.2, fun tells => ?_⟩
  · refine .cons (.submit (.inr ⟨Submission.isLost_lost, rfl⟩)) ?_
    exact .cons (.submit (.inl rfl)) (.cons .flush .nil)
  · have hsame : c.worker.calls.length = c'.worker.calls.length := congrArg List.length tells.calls
    rw [hc.2, hc'.2] at hsame
    cases hsame

end ChangeRelay
