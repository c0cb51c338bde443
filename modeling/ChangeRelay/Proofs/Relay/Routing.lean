/-
Where groups go, whatever the host answers. Before a run gathers anything it asks for the open projects
and for the engine of each (`Host.atStart`), and among all answers these alone decide about the calls: a
group goes to the engine that was told for its project, and is dropped if none was (`Routed`). What
a host says later, or would have said about the engine of one project, moves no call of another.
-/
import ChangeRelay.Proofs.Host.OneEngine
import ChangeRelay.Proofs.Relay.Gather
import ChangeRelay.Relay.Run
import Mathlib.Data.List.Basic

namespace ChangeRelay

variable {σ τ : Type}

/-! ## Engines as they are told -/

/-- Asks for the engines of projects, one after the other. -/
def Host.tellEngines (h : Host σ) : List ProjectId → StateM σ (List (ProjectId × Option Engine))
  | [] => pure []
  | p :: ps => do
    let e? ← h.engineIfStarted p
    let told ← h.tellEngines ps
    pure ((p, e?) :: told)

/-- What a host tells at the start of a run: its open projects, each with its engine. -/
def Host.atStart (h : Host σ) : StateM σ (List (ProjectId × Option Engine)) := do
  let projects ← h.openProjects
  h.tellEngines projects

theorem tellEngines_cons (h : Host σ) (p : ProjectId) (ps : List ProjectId) (s : σ) :
    (h.tellEngines (p :: ps)).run s =
      ((p, ((h.engineIfStarted p).run s).1) :: ((h.tellEngines ps).run ((h.engineIfStarted p).run s).2).1,
        ((h.tellEngines ps).run ((h.engineIfStarted p).run s).2).2) := rfl

theorem tellEngines_fst (h : Host σ) : ∀ (ps : List ProjectId) (s : σ),
    ((h.tellEngines ps).run s).1.map (·.1) = ps
  | [], _ => rfl
  | p :: ps, s => congrArg (p :: ·) (tellEngines_fst h ps ((h.engineIfStarted p).run s).2)

theorem atStart_fst (h : Host σ) (s : σ) :
    (h.atStart.run s).1.map (·.1) = (h.openProjects.run s).1 := tellEngines_fst h _ _

/-- The engine of a project by what has been told. -/
def engineTold (told : List (ProjectId × Option Engine)) (p : ProjectId) : Option Engine :=
  told.findSome? fun t => if t.1 = p then t.2 else none

theorem engineTold_cons (q : ProjectId) (e? : Option Engine) (told : List (ProjectId × Option Engine))
    (p : ProjectId) :
    engineTold ((q, e?) :: told) p = if q = p then e?.or (engineTold told p) else engineTold told p := by
  unfold engineTold
  rw [List.findSome?_cons]
  by_cases h : q = p
  · simp only [h, if_true]; cases e? <;> rfl
  · simp only [h, if_false]

theorem engineTold_eq_none {told : List (ProjectId × Option Engine)} {p : ProjectId}
    (h : p ∉ told.map (·.1)) : engineTold told p = none := by
  refine List.findSome?_eq_none_iff.2 fun t ht => if_neg fun htp => h ?_
  exact htp ▸ List.mem_map_of_mem ht

/-- Where every project stands once, its engine is the one that stands beside it. -/
theorem engineTold_eq_some_iff {p : ProjectId} {e : Engine} : ∀ {told : List (ProjectId × Option Engine)},
    (told.map (·.1)).Nodup → (engineTold told p = some e ↔ (p, some e) ∈ told)
  | [], _ => by simp [engineTold]
  | (q, e?) :: told, once => by
    obtain ⟨hq, once⟩ := List.nodup_cons.1 once
    rw [engineTold_cons, List.mem_cons, Prod.mk.injEq]
    by_cases h : q = p
    · subst h
      have hnot : (q, some e) ∉ told := fun hmem => hq (List.mem_map.2 ⟨_, hmem, rfl⟩)
      rw [if_pos rfl, engineTold_eq_none hq, Option.or_none]
      simp [hnot, eq_comm]
    · have h' : ¬ p = q := fun hp => h hp.symm
      simpa [h, h'] using engineTold_eq_some_iff once

/-! ## Routers -/

namespace Router

/-- The router that knows also the engines that have been told. -/
def learn (r : Router) : List (ProjectId × Option Engine) → Router
  | [] => r
  | (p, some e) :: told => learn (r.insert p e) told
  | (_, none) :: told => learn r told

theorem engine?_insert (r : Router) (p q : ProjectId) (e : Engine) :
    (r.insert p e).engine? q = if p = q then some e else r.engine? q := by
  unfold engine? insert
  rw [List.find?_cons]
  by_cases h : p = q
  · simp [h]
  · rw [if_neg h, beq_eq_false_iff_ne.2 h]

theorem capture_run (h : Host σ) : ∀ (ps : List ProjectId) (r : Router) (s : σ),
    (capture h ps r).run s = (r.learn ((h.tellEngines ps).run s).1, ((h.tellEngines ps).run s).2)
  | [], _, _ => rfl
  | p :: ps, r, s => by
    unfold capture Host.tellEngines
    rw [run_bind, run_bind]
    cases ((h.engineIfStarted p).run s).1 with
    | none => exact capture_run h ps r _
    | some e => exact capture_run h ps (r.insert p e) _

/-- A router knows what has been told of projects that stand in the list once. -/
theorem engine?_learn (p : ProjectId) : ∀ {told : List (ProjectId × Option Engine)} (r : Router),
    (told.map (·.1)).Nodup → (r.learn told).engine? p = (engineTold told p).or (r.engine? p)
  | [], _, _ => rfl
  | (q, e?) :: told, r, once => by
    rw [List.map_cons, List.nodup_cons] at once
    obtain ⟨hq, once⟩ := once
    rw [engineTold_cons]
    cases e? with
    | none =>
      rw [Option.none_or, ite_self]
      exact engine?_learn p r once
    | some e =>
      rw [learn, engine?_learn p _ once, engine?_insert]
      by_cases h : q = p
      · subst h
        rw [engineTold_eq_none hq, if_pos rfl, if_pos rfl]; rfl
      · rw [if_neg h, if_neg h]

/-! ## Groups -/

variable (r : Router)

theorem calls_dispatchGroups : ∀ gs : List (SourceModule × List Change),
    (r.dispatchGroups gs).calls =
      gs.filterMap fun g => (r.engine? g.1.project).map fun e => ⟨e, g.1, g.2⟩
  | [] => rfl
  | (m, cs) :: gs => by
    rw [dispatchGroups, List.filterMap_cons]
    cases r.engine? m.project with
    | none => exact calls_dispatchGroups gs
    | some e => exact congrArg (_ :: ·) (calls_dispatchGroups gs)

theorem dispatched_dispatchGroups : ∀ gs : List (SourceModule × List Change),
    (r.dispatchGroups gs).dispatched = (r.dispatchGroups gs).calls.length
  | [] => rfl
  | (m, cs) :: gs => by
    rw [dispatchGroups]
    cases r.engine? m.project with
    | none => exact dispatched_dispatchGroups gs
    | some e => exact congrArg (· + 1) (dispatched_dispatchGroups gs)

theorem dispatched_add_dropped : ∀ gs : List (SourceModule × List Change),
    (r.dispatchGroups gs).dispatched + (r.dispatchGroups gs).dropped = gs.length
  | [] => rfl
  | (m, cs) :: gs => by
    have ih := dispatched_add_dropped gs
    rw [dispatchGroups, List.length_cons]
    cases r.engine? m.project with
    | none => simp only; omega
    | some e => simp only; omega

/-- What is sent and what is dropped are all changes; where no group is empty, every group that is
dropped costs a change. -/
theorem sent_add_dropped : ∀ gs : List (SourceModule × List Change), (∀ g ∈ gs, g.2 ≠ []) →
    ((r.dispatchGroups gs).calls.flatMap (·.changes)).length + (r.dispatchGroups gs).dropped ≤
        (gs.flatMap (·.2)).length ∧
      ((r.dispatchGroups gs).dropped = 0 → (r.dispatchGroups gs).calls.flatMap (·.changes) = gs.flatMap (·.2))
  | [], _ => ⟨Nat.le_refl _, fun _ => rfl⟩
  | (m, cs) :: gs, hne => by
    obtain ⟨hle, heq⟩ := sent_add_dropped gs fun g hg => hne g (List.mem_cons_of_mem _ hg)
    have hcs : 0 < cs.length := List.length_pos_iff.2 (hne _ List.mem_cons_self)
    rw [dispatchGroups, List.flatMap_cons, List.length_append]
    cases r.engine? m.project with
    | none => exact ⟨by simp only; omega, fun h => absurd h (Nat.succ_ne_zero _)⟩
    | some e =>
      simp only [List.flatMap_cons, List.length_append]
      exact ⟨by omega, fun h => by rw [heq h]⟩

/-- A change of a batch is in a call to the engine of its project; without an engine it is in none. -/
theorem mem_dispatch_ofChanges {cs : List Change} {c : Change} (hc : c ∈ cs) :
    (∀ e, r.engine? c.module.project = some e →
      ∃ call ∈ (r.dispatch (.ofChanges cs)).calls,
        call.engine = e ∧ call.module.Same c.module ∧ c ∈ call.changes) ∧
    (r.engine? c.module.project = none →
      ∀ call ∈ (r.dispatch (.ofChanges cs)).calls, c ∉ call.changes) := by
  rw [dispatch, calls_dispatchGroups]
  constructor
  · intro e he
    obtain ⟨g, hg, hcg, hsame⟩ := Batch.exists_mem_ofChanges hc
    refine ⟨⟨e, g.1, g.2⟩, List.mem_filterMap.2 ⟨g, hg, ?_⟩, rfl, hsame.symm, hcg⟩
    rw [← hsame.2.1, he]
    rfl
  · intro hnone call hcall hmem
    obtain ⟨g, hg, hsome⟩ := List.mem_filterMap.1 hcall
    obtain ⟨e, he, rfl⟩ := Option.map_eq_some_iff.1 hsome
    -- the group of a change is that of its module, and so of its project
    rw [(Batch.mem_ofChanges hg).1] at hmem
    have hsame : c.module.Same g.1 := of_decide_eq_true (List.mem_filter.1 hmem).2
    rw [← hsame.2.1, hnone] at he
    cases he

end Router

/-! ## Runs -/

theorem calls_ofBatch (r : Router) (n : Nat) (b : Batch) : (Outcome.ofBatch r n b).calls =
    b.groups.filterMap fun g => (r.engine? g.1.project).map fun e => ⟨e, g.1, g.2⟩ :=
  Router.calls_dispatchGroups r b.groups

/-- A run asks what it asks at the start, gathers, and sends by what it was told. -/
theorem run_run (h : Host σ) (d : Disk) (x : Expander) (classify : Classifier) (ms : List Mutation)
    (s : σ) :
    ((run h d x classify ms).run s).1 =
      (((gather h d x ((h.atStart.run s).1.map (·.1)) classify ms).run (h.atStart.run s).2).1).map
        (Outcome.ofBatch (Router.empty.learn (h.atStart.run s).1) ms.length) := by
  unfold run Router.ofProjects
  rw [atStart_fst, run_bind, run_bind, Router.capture_run, run_bind]
  rfl

/-- Nothing comes of a run exactly if one of the mutations cannot be classified. -/
theorem run_eq_none_iff (h : Host σ) (d : Disk) (x : Expander) (classify : Classifier) (ms : List Mutation)
    (s : σ) : ((run h d x classify ms).run s).1 = none ↔ ∃ m ∈ ms, classify m = .failed := by
  rw [run_run, Option.map_eq_none_iff, gather_eq_none_iff]

/-- What comes of a batch when it has been told which engines there are. -/
structure Routed (told : List (ProjectId × Option Engine)) (mutations : Nat) (b : Batch) (o : Outcome) :
    Prop where
  /-- There is a call for each group with an engine, in the order of the groups, and no other. -/
  calls : o.calls = b.groups.filterMap fun g => (engineTold told g.1.project).map fun e => ⟨e, g.1, g.2⟩
  engine : ∀ p e, engineTold told p = some e ↔ (p, some e) ∈ told
  /-- No module has two calls. -/
  once : o.calls.Pairwise fun c c' => ¬ c.module.Same c'.module
  mutations : o.summary.mutations = mutations
  changes : o.summary.changes = (b.groups.flatMap (·.2)).length
  dispatched : o.summary.dispatched = o.calls.length
  dropped : o.summary.dispatched + o.summary.dropped = b.groups.length
  sent_le : (o.calls.flatMap (·.changes)).length ≤ o.summary.changes
  sent_eq_iff : (o.calls.flatMap (·.changes)).length = o.summary.changes ↔ o.summary.dropped = 0

theorem ofBatch_routed {told : List (ProjectId × Option Engine)} (once : (told.map (·.1)).Nodup)
    {b : Batch} (hb : b.Grouped) (mutations : Nat) :
    Routed told mutations b (.ofBatch (Router.empty.learn told) mutations b) := by
  obtain ⟨cs, rfl⟩ := hb
  have hengine (p : ProjectId) : (Router.empty.learn told).engine? p = engineTold told p := by
    rw [Router.engine?_learn p _ once]; exact Option.or_none
  have hcalls := Router.calls_dispatchGroups (Router.empty.learn told) (Batch.ofChanges cs).groups
  simp only [hengine] at hcalls
  obtain ⟨hle, heq⟩ := Router.sent_add_dropped (Router.empty.learn told) (Batch.ofChanges cs).groups
    fun g hg => (Batch.mem_ofChanges hg).2
  refine ⟨hcalls, fun p e => engineTold_eq_some_iff once, ?_, rfl, rfl,
    Router.dispatched_dispatchGroups _ _, Router.dispatched_add_dropped _ _,
    Nat.le_trans (Nat.le_add_right _ _) hle, fun h => ?_, fun h => congrArg List.length (heq h)⟩
  · show List.Pairwise _ (Router.dispatchGroups _ _).calls
    rw [hcalls]
    refine List.Pairwise.filterMap _ (fun g g' hg c hc c' hc' => ?_) (Batch.ofChanges_pairwise cs)
    obtain ⟨e, -, rfl⟩ := Option.map_eq_some_iff.1 hc
    obtain ⟨e', -, rfl⟩ := Option.map_eq_some_iff.1 hc'
    exact hg
  · have hsent : ((Router.dispatchGroups _ _).calls.flatMap (·.changes)).length = _ := h
    rw [hsent] at hle
    exact Nat.le_zero.1 (Nat.le_of_add_le_add_left hle)

/-! ## The engine of one project -/

/-- What an outcome tells, whatever engine one project has: the numbers of mutations, of changes and of
modules, and the calls to other projects. -/
def Outcome.apartFrom (q : ProjectId) (o : Outcome) : Nat × Nat × Nat × List Call :=
  (o.summary.mutations, o.summary.changes, o.summary.dispatched + o.summary.dropped,
    o.calls.filter fun c => decide (c.module.project ≠ q))

namespace Host.AgreeBut

variable {q : ProjectId} {R : σ → τ → Prop} {h : Host σ} {h' : Host τ} (hh : h.AgreeBut q R h')
include hh

theorem tellEngines : ∀ (ps : List ProjectId) {s : σ} {t : τ}, R s t →
    (∀ p, p ≠ q → engineTold ((h.tellEngines ps).run s).1 p = engineTold ((h'.tellEngines ps).run t).1 p) ∧
      R ((h.tellEngines ps).run s).2 ((h'.tellEngines ps).run t).2
  | [], _, _, hr => ⟨fun _ _ => rfl, hr⟩
  | p₀ :: ps, s, t, hr => by
    have hr₀ : R ((h.engineIfStarted p₀).run s).2 ((h'.engineIfStarted p₀).run t).2 := by
      by_cases hp₀ : p₀ = q
      · rw [hp₀]; exact hh.moves s t hr
      · exact (hh.engine p₀ hp₀).related hr
    obtain ⟨hsame, hr'⟩ := tellEngines ps hr₀
    refine ⟨fun p hp => ?_, hr'⟩
    rw [tellEngines_cons, tellEngines_cons, engineTold_cons, engineTold_cons, ← hsame p hp]
    by_cases hp₀ : p₀ = p
    · subst hp₀
      rw [(hh.engine p₀ hp).value_eq hr]
    · rw [if_neg hp₀, if_neg hp₀]

theorem atStart {s : σ} {t : τ} (hr : R s t) :
    (h.atStart.run s).1.map (·.1) = (h'.atStart.run t).1.map (·.1) ∧
    (∀ p, p ≠ q → engineTold (h.atStart.run s).1 p = engineTold (h'.atStart.run t).1 p) ∧
      R (h.atStart.run s).2 (h'.atStart.run t).2 := by
  have hps : (h.openProjects.run s).1 = (h'.openProjects.run t).1 := hh.openProjects.value_eq hr
  refine ⟨by rw [atStart_fst, atStart_fst, hps], ?_⟩
  unfold Host.atStart
  rw [run_bind, run_bind, hps]
  exact hh.tellEngines _ (hh.openProjects.related hr)

end Host.AgreeBut

/-- Calls to a project depend on what has been told about this project only. -/
theorem Routed.apartFrom_eq {q : ProjectId} {told told' : List (ProjectId × Option Engine)}
    {mutations : Nat} {b : Batch} {o o' : Outcome} (ho : Routed told mutations b o)
    (ho' : Routed told' mutations b o') (hsame : ∀ p, p ≠ q → engineTold told p = engineTold told' p) :
    o.apartFrom q = o'.apartFrom q := by
  unfold Outcome.apartFrom
  rw [ho.mutations, ho'.mutations, ho.changes, ho'.changes, ho.dropped, ho'.dropped, ho.calls, ho'.calls,
    List.filter_filterMap, List.filter_filterMap]
  congr 3
  refine List.filterMap_congr fun g _ => ?_
  by_cases hq : g.1.project = q
  · cases engineTold told g.1.project <;> cases engineTold told' g.1.project <;>
      simp [hq, Option.filter]
  · rw [hsame _ hq]

/-- A run with a host that lists each open project once, whatever it answers and whenever its answers
change. Unless a mutation cannot be classified, a batch is gathered and sent to the engines that were
told at the start. A run that differs in the engine of one project only makes the same calls to all
others. -/
theorem run_routes (h : Host σ) (d : Disk) (x : Expander) (classify : Classifier) (ms : List Mutation)
    (s : σ) (once : (h.openProjects.run s).1.Nodup) :
    let told := (h.atStart.run s).1
    let batch? := ((gather h d x (told.map (·.1)) classify ms).run (h.atStart.run s).2).1
    let outcome? := ((run h d x classify ms).run s).1
    told.map (·.1) = (h.openProjects.run s).1 ∧
    (outcome? = none ↔ ∃ m ∈ ms, classify m = .failed) ∧
    (∀ o, outcome? = some o → ∃ b, batch? = some b ∧ Routed told ms.length b o) ∧
    ∀ (τ : Type) (h' : Host τ) (q : ProjectId) (R : σ → τ → Prop) (t : τ), h.AgreeBut q R h' → R s t →
      outcome?.map (·.apartFrom q) = ((run h' d x classify ms).run t).1.map (·.apartFrom q) := by
  intro told batch? outcome?
  have hrun : outcome? = batch?.map (Outcome.ofBatch (Router.empty.learn told) ms.length) := run_run ..
  have hnodup : (told.map (·.1)).Nodup := by rw [atStart_fst]; exact once
  refine ⟨atStart_fst h s, run_eq_none_iff h d x classify ms s, fun o ho => ?_,
    fun τ h' q R t hh hr => ?_⟩
  · rw [hrun] at ho
    obtain ⟨b, hb, rfl⟩ := Option.map_eq_some_iff.1 ho
    exact ⟨b, hb, ofBatch_routed hnodup (gather_grouped hb) _⟩
  · obtain ⟨hps, hsame, hr'⟩ := hh.atStart hr
    have hnodup' : ((h'.atStart.run t).1.map (·.1)).Nodup := hps ▸ hnodup
    -- the engine of `q` is asked about before anything is gathered, and never again
    have hbatch : batch? = ((gather h' d x ((h'.atStart.run t).1.map (·.1)) classify ms).run
        (h'.atStart.run t).2).1 := by
      rw [← hps]
      exact (gather_inStep hh.gathering d x _ classify ms).value_eq hr'
    rw [hrun, run_run, ← hbatch]
    cases hb : batch? with
    | none => rfl
    | some b =>
      have hgrouped : b.Grouped := gather_grouped hb
      exact congrArg some
        ((ofBatch_routed hnodup hgrouped _).apartFrom_eq (ofBatch_routed hnodup' hgrouped _) hsame)

/-- Two projects with the modules `/w` and `/v`, the first with an engine and the second perhaps with one.
At the fourth question about disposal the first is lost. -/
def WatchedRegistry.losing (e? : Option Engine) : WatchedRegistry :=
  { plain ⟨⟨[]⟩, [(⟨"p"⟩, ⟨[⟨⟨"m"⟩, ⟨"p"⟩, ⟨[47, 119]⟩⟩], some ⟨"e"⟩, false⟩),
      (⟨"q"⟩, ⟨[⟨⟨"n"⟩, ⟨"q"⟩, ⟨[47, 118]⟩⟩], e?, false⟩)]⟩ with closing := some (4, ⟨"p"⟩) }

/-- A project that is lost during the run keeps its call, and the engine of the other has no part in it. -/
theorem run_routes_losing :
    let outcome? := fun e? => ((run WatchedRegistry.host (.empty []) (.ofInclusion .all) Phase.settled.classifier
      [.created (.file ⟨[47, 119, 47, 97]⟩), .created (.file ⟨[47, 118, 47, 98]⟩)]).run (.losing e?)).1
    (WatchedRegistry.losing (some ⟨"f"⟩)).registry.openProjects.Nodup ∧
    (outcome? (some ⟨"f"⟩)).map (·.calls.map (·.engine)) = some [⟨"e"⟩, ⟨"f"⟩] ∧
    (outcome? (some ⟨"f"⟩)).map (·.apartFrom ⟨"q"⟩) = (outcome? none).map (·.apartFrom ⟨"q"⟩) := by
  have once : (WatchedRegistry.losing (some ⟨"f"⟩)).registry.openProjects.Nodup := by decide
  have same : (WatchedRegistry.losing (some ⟨"f"⟩)).SameBut ⟨"q"⟩ (.losing none) :=
    ⟨⟨rfl, .cons ⟨rfl, rfl, rfl, fun _ => rfl⟩ (.cons ⟨rfl, rfl, rfl, fun h => absurd rfl h⟩ .nil)⟩,
      rfl, rfl, rfl, rfl⟩
  refine ⟨once, by decide +kernel, ?_⟩
  exact (run_routes WatchedRegistry.host _ _ _ _ (.losing _) once).2.2.2 _ _ ⟨"q"⟩ _ _
    (WatchedRegistry.watched_agreeBut ⟨"q"⟩) same

end ChangeRelay
