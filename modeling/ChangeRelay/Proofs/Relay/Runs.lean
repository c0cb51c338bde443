/-
Runs with hosts that answer alike. Hosts that keep step in all their answers lead to the same outcome
(`run_inStep`), and where answers do not change the outcome is read off them (`run_answers`). A host may
change when it is asked, without a difference to its answers; then what it was asked before makes no
difference to a run (`Host.Indifferent.run`).
-/
import ChangeRelay.Proofs.Relay.Routing

namespace ChangeRelay

variable {σ τ : Type} {R : σ → τ → Prop} {lost : σ → Prop}

/-! ## Hosts in step -/

section

variable {h : Host σ} {h' : Host τ} (hh : h.RunInStep R lost h')
include hh

theorem capture_inStep : ∀ (ps : List ProjectId) (r : Router),
    InStep R lost (Router.capture h ps r) (Router.capture h' ps r)
  | [], r => .pure r
  | p :: ps, r => by
    unfold Router.capture
    refine (hh.engine p).bind fun e? => ?_
    cases e? with
    | none => exact capture_inStep ps r
    | some e => exact capture_inStep ps (r.insert p e)

/-- Hosts that answer in step lead to the same outcome, unless the first is lost. -/
theorem run_inStep (d : Disk) (x : Expander) (classify : Classifier) (ms : List Mutation) :
    InStep R lost (run h d x classify ms) (run h' d x classify ms) := by
  unfold run Router.ofProjects
  refine hh.openProjects.bind fun projects => ?_
  refine (capture_inStep hh projects .empty).bind fun router => ?_
  exact (gather_inStep hh.gathering d x projects classify ms).bind fun b? => .pure _

end

/-! ## Fixed answers -/

variable {d : Disk} {x : Expander} {classify : Classifier} {ms : List Mutation}

/-- The engine of a project that is open, if one has been started. -/
def Answers.engine? (a : Answers) (p : ProjectId) : Option Engine :=
  if p ∈ a.openProjects then a.engineIfStarted p else none

/-- The engines that are told at the start of a run. -/
def Answers.router (a : Answers) : Router :=
  Router.empty.learn (a.openProjects.map fun p => (p, a.engineIfStarted p))

theorem engine?_learn_map (f : ProjectId → Option Engine) (p : ProjectId) : ∀ (ps : List ProjectId) (r : Router),
    (r.learn (ps.map fun q => (q, f q))).engine? p = if p ∈ ps then (f p).or (r.engine? p) else r.engine? p
  | [], _ => rfl
  | q :: ps, r => by
    rw [List.map_cons]
    cases hq : f q with
    | none =>
      rw [Router.learn, engine?_learn_map f p ps r]
      by_cases hpq : p = q
      · subst hpq
        simp [hq]
      · simp [hpq]
    | some e =>
      rw [Router.learn, engine?_learn_map f p ps, Router.engine?_insert]
      by_cases hpq : p = q
      · subst hpq
        simp [hq]
      · have hqp : ¬ q = p := fun h => hpq h.symm
        simp [hpq, hqp]

theorem Answers.engine?_router (a : Answers) (p : ProjectId) : a.router.engine? p = a.engine? p := by
  rw [Answers.router, engine?_learn_map, Answers.engine?]
  split
  · exact Option.or_none
  · rfl

theorem tellEngines_answers (a : Answers) : ∀ ps : List ProjectId,
    a.host.tellEngines ps = pure (ps.map fun p => (p, a.engineIfStarted p))
  | [] => rfl
  | p :: ps => by
    have hask : a.host.engineIfStarted p = pure (a.engineIfStarted p) := rfl
    rw [Host.tellEngines, hask, pure_bind, tellEngines_answers a ps]
    rfl

/-- Where answers do not change, a run sends the changes that are read off them. -/
theorem run_answers (a : Answers) (hc : ∀ m ∈ ms, classify m ≠ .failed) :
    ((run a.host d x classify ms).run ()).1 = some
      (.ofBatch a.router ms.length (.ofChanges (a.changes d x a.openProjects classify [] ms))) := by
  have hstart : a.host.atStart.run () = (a.openProjects.map fun p => (p, a.engineIfStarted p), ()) :=
    congrArg (fun y : StateM Unit _ => y.run ()) (tellEngines_answers a a.openProjects)
  have hgather := gather_answers a d x a.openProjects classify ms hc
  rw [run_run, atStart_fst, hstart]
  show Option.map _ ((gather a.host d x a.openProjects classify ms).run ()).1 = _
  rw [hgather]
  rfl

theorem registry_runInStep (r : Registry) :
    Registry.host.RunInStep (fun s (_ : Unit) => s = r) (fun _ => False) r.answers.host :=
  ⟨registry_inStep r, inStep_of_run fun _ _ h => h ▸ rfl, fun _ => inStep_of_run fun _ _ h => h ▸ rfl⟩

/-! ## Hosts that are indifferent to questions -/

/-- The answers that a host gives in a state. -/
def Host.answersAt (h : Host σ) (s : σ) : Answers where
  openProjects := (h.openProjects.run s).1
  isDisposed p := ((h.isDisposed p).run s).1
  findModule p e := ((h.findModule p e).run s).1
  engineIfStarted p := ((h.engineIfStarted p).run s).1
  isMetadata e := ((h.isMetadata e).run s).1

/-- A host answers alike in states that are alike, and a question leaves it in a state like the one before. -/
structure Host.Indifferent (like : σ → σ → Prop) (h : Host σ) : Prop where
  symm : ∀ {s t}, like s t → like t s
  trans : ∀ {s t u}, like s t → like t u → like s u
  answers : ∀ {t}, like t t → h.RunInStep (fun s (_ : Unit) => like s t) (fun _ => False) (h.answersAt t).host

/-- What such a host leads to does not tell states from one another that are alike, and a run, of whatever
mutations, leaves it in a state like the one before. -/
theorem Host.Indifferent.run {like : σ → σ → Prop} {h : Host σ} (hh : h.Indifferent like) (d : Disk)
    (x : Expander) (classify : Classifier) (ms : List Mutation) {s t : σ} (hst : like s t)
    (classify' : Classifier) (ns : List Mutation) :
    ((ChangeRelay.run h d x classify ms).run s).1 = ((ChangeRelay.run h d x classify ms).run t).1 ∧
      like ((ChangeRelay.run h d x classify ms).run s).2 ((ChangeRelay.run h d x classify' ns).run t).2 := by
  -- from states that are alike, runs are in step with the answers given in one of them
  have htt : like t t := hh.trans (hh.symm hst) hst
  have inStep := run_inStep (hh.answers htt) d x classify ms
  have inStep' := run_inStep (hh.answers htt) d x classify' ns
  refine ⟨(inStep.value_eq (t := ()) hst).trans (inStep.value_eq (t := ()) htt).symm, ?_⟩
  exact hh.trans (inStep.related (t := ()) hst) (hh.symm (inStep'.related (t := ()) htt))

/-- Two registries under watch give the same answers and will not lose a project; how often each of them was
asked may differ. -/
structure WatchedRegistry.Alike (v w : WatchedRegistry) : Prop where
  registry : v.registry = w.registry
  claim : v.claim = w.claim
  stays : v.closing = none
  stays' : w.closing = none

theorem watchedRegistry_indifferent : WatchedRegistry.host.Indifferent WatchedRegistry.Alike where
  symm h := ⟨h.registry.symm, h.claim.symm, h.stays', h.stays⟩
  trans h h' := ⟨h.registry.trans h'.registry, h.claim.trans h'.claim, h.stays, h'.stays'⟩
  answers := by
    rintro ⟨r, checks, lookups, closing, claim⟩ ⟨-, -, stays, -⟩
    obtain rfl : closing = none := stays
    -- a question raises a counter at most, and its answer does not depend on the counters
    have inStep {α : Type} {q : StateM WatchedRegistry α} {a : α}
        (hq : ∀ n k, (q.run ⟨r, n, k, none, claim⟩).1 = a ∧
          ∃ n' k', (q.run ⟨r, n, k, none, claim⟩).2 = ⟨r, n', k', none, claim⟩) :
        InStep (fun v (_ : Unit) => v.Alike ⟨r, checks, lookups, none, claim⟩) (fun _ => False) q (pure a) := by
      refine ⟨?_, fun _ h => h⟩
      rintro ⟨_, n, k, _, _⟩ ⟨⟩ ⟨rfl, rfl, rfl, -⟩
      obtain ⟨hvalue, n', k', hstate⟩ := hq n k
      exact .inr ⟨hvalue, hstate ▸ ⟨rfl, rfl, rfl, rfl⟩⟩
    exact ⟨⟨fun _ => inStep fun n k => ⟨rfl, n + 1, k, rfl⟩, fun _ _ => inStep fun n k => ⟨rfl, n, k, rfl⟩,
      fun _ => inStep fun n k => ⟨rfl, n, k + 1, rfl⟩⟩,
      inStep fun n k => ⟨rfl, n, k, rfl⟩, fun _ => inStep fun n k => ⟨rfl, n, k, rfl⟩⟩

end ChangeRelay
