/-
Steps of the consumer of a worker. What a step may do is said once (`Move`), and what is settled at
once is what steps come to (`settle_steps`): to settle a worker, to wait for a barrier and to shut a
worker down is to take some number of steps, so what every step keeps is kept by these too.
-/
import ChangeRelay.Proofs.Computation
import ChangeRelay.Queue.Worker

namespace ChangeRelay

variable {σ β κ : Type}

/-- The batch of a job that is one. -/
def Job.batch? : Job β → Option β
  | .batch b => some b
  | .barrier _ => none

namespace Worker

/-! ## Queues -/

/-- The batches in the queue of a worker. -/
def batches (w : Worker β κ) : List β := w.queue.filterMap Job.batch?

theorem enqueue_ok {w w' : Worker β κ} {j : Job β} (h : w.enqueue j = .ok w') :
    w'.consumer = w.consumer ∧ w'.calls = w.calls ∧ w'.batches = w.batches ++ j.batch?.toList := by
  unfold enqueue at h
  split at h
  · cases h
    refine ⟨rfl, rfl, ?_⟩
    show (w.queue ++ [j]).filterMap Job.batch? = w.queue.filterMap Job.batch? ++ _
    rw [List.filterMap_append, List.filterMap_cons]
    cases j.batch? <;> rfl
  · cases h

theorem hasStopped_iff {w : Worker β κ} : w.hasStopped = true ↔ ∃ left, w.consumer = .stopped left := by
  unfold hasStopped
  cases w.consumer <;> simp

theorem hasStopped_of_waiting {w : Worker β κ} (h : w.consumer = .waiting) : w.hasStopped = false := by
  rw [hasStopped, h]

theorem hasStopped_of_running {w : Worker β κ} {cs : List κ} (h : w.consumer = .running cs) :
    w.hasStopped = false := by
  rw [hasStopped, h]

/-! ## A step -/

/-- What a step of the consumer does to a worker and to the state that runs are taken from. -/
inductive Move (run : β → StateM σ (List κ)) (w : Worker β κ) (s : σ) : Worker β κ → σ → Prop where
  /-- A run is started. -/
  | start (b : β) (queue : List (Job β)) (hc : w.consumer = .waiting) (hq : w.queue = .batch b :: queue) :
    Move run w s { w with queue := queue, consumer := .running ((run b).run s).1 } ((run b).run s).2
  /-- A barrier is passed. -/
  | pass (t : Nat) (queue : List (Job β)) (hc : w.consumer = .waiting) (hq : w.queue = .barrier t :: queue) :
    Move run w s { w with queue := queue, passed := w.passed ++ [t] } s
  /-- Nothing is left to do, and nothing will be. -/
  | stop (hc : w.consumer = .waiting) (hq : w.queue = []) (ha : w.accepting = false) :
    Move run w s { w with consumer := .stopped [] } s
  /-- The run in progress makes a call. -/
  | call (c : κ) (cs : List κ) (hc : w.consumer = .running (c :: cs)) :
    Move run w s { w with consumer := .running cs, calls := w.calls ++ [c] } s
  /-- The run in progress ends. -/
  | finish (hc : w.consumer = .running []) : Move run w s { w with consumer := .waiting } s
  /-- A run that has been left to finish makes a call. -/
  | lateCall (c : κ) (cs : List κ) (hc : w.consumer = .stopped (c :: cs)) :
    Move run w s { w with consumer := .stopped cs, calls := w.calls ++ [c] } s
  /-- There is nothing to do. -/
  | rest (hc : w.consumer = .stopped [] ∨ w.consumer = .waiting ∧ w.queue = [] ∧ w.accepting = true) :
    Move run w s w s

/-- Every step is one of the moves. -/
theorem step_move (run : β → StateM σ (List κ)) (w : Worker β κ) (s : σ) :
    Move run w s ((w.step run).run s).1 ((w.step run).run s).2 := by
  obtain ⟨accepting, queue, consumer, calls, issued, passed⟩ := w
  cases consumer with
  | waiting =>
    cases queue with
    | nil =>
      cases accepting with
      | true => exact .rest (.inr ⟨rfl, rfl, rfl⟩)
      | false => exact .stop rfl rfl rfl
    | cons j queue =>
      cases j with
      | batch b => exact .start b queue rfl rfl
      | barrier t => exact .pass t queue rfl rfl
  | running cs =>
    cases cs with
    | nil => exact .finish rfl
    | cons c cs => exact .call c cs rfl
  | stopped cs =>
    cases cs with
    | nil => exact .rest (.inl rfl)
    | cons c cs => exact .lateCall c cs rfl

/-- No move changes whether something is accepted. -/
theorem Move.accepting_eq {run : β → StateM σ (List κ)} {w w' : Worker β κ} {s s' : σ}
    (h : Move run w s w' s') : w'.accepting = w.accepting := by
  cases h <;> rfl

/-- No move takes back a call. -/
theorem Move.calls_kept {run : β → StateM σ (List κ)} {w w' : Worker β κ} {s s' : σ}
    (h : Move run w s w' s') : w.calls <+: w'.calls := by
  cases h with
  | call c cs hc => exact List.prefix_append _ _
  | lateCall c cs hc => exact List.prefix_append _ _
  | _ => exact List.prefix_rfl

/-! ## Many steps -/

/-- Takes a number of steps. -/
def steps (run : β → StateM σ (List κ)) : Nat → Worker β κ → StateM σ (Worker β κ)
  | 0, w => pure w
  | n + 1, w => do
    let w ← w.step run
    steps run n w

theorem steps_add (run : β → StateM σ (List κ)) : ∀ (m n : Nat) (w : Worker β κ),
    steps run (m + n) w = (do let w ← steps run m w; steps run n w)
  | 0, n, w => by rw [Nat.zero_add]; rfl
  | m + 1, n, w => by
    rw [Nat.succ_add, steps, steps, bind_assoc]
    exact bind_congr fun w => steps_add run m n w

variable (run : β → StateM σ (List κ))

/-- The calls of a run in progress are made one by one, and then it ends. -/
theorem steps_running : ∀ (cs : List κ) (w : Worker β κ),
    steps run (cs.length + 1) { w with consumer := .running cs } =
      pure { w with consumer := .waiting, calls := w.calls ++ cs }
  | [], w => by rw [List.append_nil]; rfl
  | c :: cs, w => by
    have ih := steps_running cs { w with calls := w.calls ++ [c] }
    rw [List.append_assoc, List.singleton_append] at ih
    exact ih

theorem steps_stopped : ∀ (cs : List κ) (w : Worker β κ),
    steps run cs.length { w with consumer := .stopped cs } =
      pure { w with consumer := .stopped [], calls := w.calls ++ cs }
  | [], w => by rw [List.append_nil]; rfl
  | c :: cs, w => by
    have ih := steps_stopped cs { w with calls := w.calls ++ [c] }
    rw [List.append_assoc, List.singleton_append] at ih
    exact ih

theorem finishRun_steps (w : Worker β κ) : ∃ n, steps run n w = pure w.finishRun := by
  obtain ⟨accepting, queue, consumer, calls, issued, passed⟩ := w
  cases consumer with
  | waiting => exact ⟨0, rfl⟩
  | running cs => exact ⟨_, steps_running run cs ⟨accepting, queue, .waiting, calls, issued, passed⟩⟩
  | stopped cs => exact ⟨_, steps_stopped run cs ⟨accepting, queue, .waiting, calls, issued, passed⟩⟩

theorem consume_batch (held : Bool) (w : Worker β κ) (b : β) (queue : List (Job β)) (s : σ) :
    (consume run held w (.batch b :: queue)).run s =
      if held && !((run b).run s).1.isEmpty then
        ({ w with queue := queue, consumer := .running ((run b).run s).1 }, ((run b).run s).2)
      else (consume run held { w with calls := w.calls ++ ((run b).run s).1 } queue).run ((run b).run s).2 := by
  rw [consume, run_bind]
  split <;> rfl

/-- The queue is consumed in steps; their number depends on what comes of the runs. -/
theorem consume_steps (held : Bool) : ∀ (queue : List (Job β)) (w : Worker β κ) (s : σ),
    w.consumer = .waiting →
    ∃ n, (consume run held w queue).run s = (steps run n { w with queue := queue }).run s
  | [], ⟨accepting, _, .waiting, calls, issued, passed⟩, s, rfl => by
    refine ⟨1, ?_⟩
    cases accepting <;> rfl
  | .barrier t :: queue, ⟨accepting, q, .waiting, calls, issued, passed⟩, s, rfl => by
    obtain ⟨n, hn⟩ := consume_steps held queue ⟨accepting, q, .waiting, calls, issued, passed ++ [t]⟩ s rfl
    exact ⟨n + 1, hn⟩
  | .batch b :: queue, ⟨accepting, q, .waiting, calls, issued, passed⟩, s, rfl => by
    rw [consume_batch]
    split
    · exact ⟨1, rfl⟩
    · -- one step starts the run, its calls and its end take as many as there are and one more
      obtain ⟨n, hn⟩ := consume_steps held queue
        ⟨accepting, q, .waiting, calls ++ ((run b).run s).1, issued, passed⟩ ((run b).run s).2 rfl
      refine ⟨(((run b).run s).1.length + 1 + n) + 1, ?_⟩
      have hrun := steps_running run ((run b).run s).1 ⟨accepting, queue, .waiting, calls, issued, passed⟩
      rw [steps, run_bind, hn]
      show _ = (steps run _ ⟨accepting, queue, .running ((run b).run s).1, calls, issued, passed⟩).run _
      rw [steps_add, hrun]
      rfl

/-- To settle a worker is to take steps. -/
theorem settle_steps (held : Bool) (w : Worker β κ) (s : σ) :
    ∃ n, (w.settle run held).run s = (steps run n w).run s := by
  unfold settle
  split
  · exact ⟨0, rfl⟩
  · obtain ⟨m, hm⟩ := finishRun_steps run w
    dsimp only
    split
    · rename_i hc
      obtain ⟨n, hn⟩ := consume_steps run held w.finishRun.queue w.finishRun s hc
      refine ⟨m + n, ?_⟩
      rw [hn, steps_add, hm]
      rfl
    · exact ⟨m, by rw [hm]⟩

/-- To shut an open worker down is to close it, to take steps, and to abort it if it has not stopped then. -/
theorem shutdown_steps (held : Bool) (w : Worker β κ) (s : σ) (h : w.accepting = true) :
    ∃ n, (w.shutdown run held).run s =
      let r := (steps run n w.close).run s
      (if r.1.hasStopped then r.1 else r.1.abort, r.2) := by
  obtain ⟨n, hn⟩ := settle_steps run held w.close s
  refine ⟨n, ?_⟩
  unfold shutdown isRunning
  rw [if_pos h, run_bind, hn]
  rfl

/-- To wait for all that has been submitted is to set a barrier, to take steps, and to look at it. -/
theorem flush_steps (held : Bool) (w w' : Worker β κ) (t : Nat) (s : σ) (h : w.setBarrier = .ok (t, w')) :
    ∃ n, (w.flush run held).run s =
      let r := (steps run n w').run s
      ((r.1.answer? t, r.1), r.2) := by
  obtain ⟨n, hn⟩ := settle_steps run held w' s
  refine ⟨n, ?_⟩
  unfold flush
  rw [h]
  show ((w'.settle run held) >>= _).run s = _
  rw [run_bind, hn]
  rfl

end Worker

end ChangeRelay
