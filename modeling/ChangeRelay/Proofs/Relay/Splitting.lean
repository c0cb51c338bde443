/-
Splitting a batch. Two runs, one after the other, deliver the same to every module of every engine as one run
on all mutations, if the answers do not change and agree on all spellings of a path that are met
(`run_append`). The single run makes one call for a module where the two may make one each; so the
mutations and the changes of the two add up to those of the one, but of its modules, sent and dropped, it
counts some that both count only once (`Outcome.Splits`).
-/
import ChangeRelay.Proofs.Relay.Runs
import ChangeRelay.Proofs.Relay.Spellings
import Mathlib.Data.Finset.Card

namespace ChangeRelay

variable {σ : Type}

/-! ## Counting modules -/

namespace SourceModule

/-- What two modules that are the same have in common. -/
def key (m : SourceModule) : ModuleId × ProjectId × List Component :=
  (m.id, m.project, m.contentRoot.components)

theorem key_eq_iff {m n : SourceModule} : m.key = n.key ↔ m.Same n := by
  unfold key Same Path.Same
  rw [Prod.mk.injEq, Prod.mk.injEq]

theorem toFinset_firsts (ms : List SourceModule) :
    ((firsts ms).map key).toFinset = (ms.map key).toFinset := by
  ext k
  simp only [List.mem_toFinset, List.mem_map]
  constructor
  · rintro ⟨m, hm, rfl⟩
    exact ⟨m, mem_of_mem_firsts hm, rfl⟩
  · rintro ⟨m, hm, rfl⟩
    obtain ⟨n, hn, same⟩ := exists_mem_firsts hm
    exact ⟨n, hn, key_eq_iff.2 same⟩

theorem length_firsts (ms : List SourceModule) : (firsts ms).length = (ms.map key).toFinset.card := by
  have once : ((firsts ms).map key).Nodup :=
    List.pairwise_map.2 ((firsts_pairwise ms).imp fun hne h => hne (key_eq_iff.1 h))
  rw [← toFinset_firsts, List.toFinset_card_of_nodup once, List.length_map]

/-- The different modules of two lists are no fewer than those of one of them, and no more than those of one
and those of the other. -/
theorem length_firsts_append (ms ns : List SourceModule) :
    max (firsts ms).length (firsts ns).length ≤ (firsts (ms ++ ns)).length ∧
      (firsts (ms ++ ns)).length ≤ (firsts ms).length + (firsts ns).length := by
  -- counted as keys, the modules of both lists are the union of those of each
  simp only [length_firsts, List.map_append, List.toFinset_append]
  refine ⟨max_le ?_ ?_, Finset.card_union_le _ _⟩
  · exact Finset.card_le_card Finset.subset_union_left
  · exact Finset.card_le_card Finset.subset_union_right

end SourceModule

/-! ## What is delivered to a module -/

/-- The changes that an engine is sent for a module, in their order. -/
def deliveredTo (calls : List Call) (e : Engine) (m : SourceModule) : List Change :=
  calls.flatMap fun c => if c.engine = e ∧ c.module.Same m then c.changes else []

/-- Where no module has two groups, the groups of a module hold the changes that are listed for it. -/
theorem flatMap_groups (m : SourceModule) : ∀ {gs : List (SourceModule × List Change)},
    gs.Pairwise (fun g g' => ¬ g.1.Same g'.1) →
      (gs.flatMap fun g => if g.1.Same m then g.2 else []) = Batch.changesTo ⟨gs⟩ m
  | [], _ => rfl
  | g :: gs, once => by
    obtain ⟨hg, hgs⟩ := List.pairwise_cons.1 once
    have ih := flatMap_groups m hgs
    unfold Batch.changesTo at ih ⊢
    rw [List.flatMap_cons, List.find?_cons]
    by_cases same : g.1.Same m
    · have hnil : (gs.flatMap fun g => if g.1.Same m then g.2 else []) = [] :=
        List.flatMap_eq_nil_iff.2 fun g' hg' => if_neg fun same' => hg g' hg' (same.trans same'.symm)
      rw [hnil, if_pos same, List.append_nil, decide_eq_true same]
    · rw [ih, if_neg same, List.nil_append, decide_eq_false same]

theorem deliveredTo_cons (c : Call) (calls : List Call) (e : Engine) (m : SourceModule) :
    deliveredTo (c :: calls) e m =
      (if c.engine = e ∧ c.module.Same m then c.changes else []) ++ deliveredTo calls e m := List.flatMap_cons

theorem deliveredTo_dispatchGroups (r : Router) (e : Engine) (m : SourceModule) :
    ∀ gs : List (SourceModule × List Change), deliveredTo (r.dispatchGroups gs).calls e m =
      if r.engine? m.project = some e then gs.flatMap fun g => if g.1.Same m then g.2 else [] else []
  | [] => by split <;> rfl
  | (n, cs) :: gs => by
    have ih := deliveredTo_dispatchGroups r e m gs
    rw [Router.dispatchGroups, List.flatMap_cons]
    cases hn : r.engine? n.project with
    | none =>
      rw [ih]
      by_cases same : n.Same m
      · have hm : r.engine? m.project = none := same.2.1 ▸ hn
        rw [hm, if_neg (Option.some_ne_none e).symm, if_neg (Option.some_ne_none e).symm]
      · rw [if_neg same, List.nil_append]
    | some f =>
      rw [deliveredTo_cons, ih]
      by_cases same : n.Same m
      · have hm : r.engine? m.project = some f := same.2.1 ▸ hn
        by_cases hfe : f = e
        · rw [hm, hfe, if_pos rfl, if_pos rfl, if_pos ⟨rfl, same⟩, if_pos same]
        · have hne : ¬ some f = some e := fun h => hfe (Option.some.inj h)
          rw [hm, if_neg hne, if_neg hne, if_neg fun h => hfe h.1, List.append_nil]
      · rw [if_neg fun h => same h.2, if_neg same, List.nil_append, List.nil_append]

/-- An engine is sent all changes to the modules of its projects, and no others. -/
theorem deliveredTo_ofBatch (r : Router) (n : Nat) (cs : List Change) (e : Engine) (m : SourceModule) :
    deliveredTo (Outcome.ofBatch r n (.ofChanges cs)).calls e m =
      if r.engine? m.project = some e then cs.filter fun c => decide (c.module.Same m) else [] := by
  have hdispatched := deliveredTo_dispatchGroups r e m (Batch.ofChanges cs).groups
  rw [flatMap_groups m (Batch.ofChanges_pairwise cs), Batch.changesTo_ofChanges] at hdispatched
  exact hdispatched

/-- The modules whose changes are sent are the different ones with an engine, and those whose changes are
dropped are the different ones without. -/
theorem counts_dispatchGroups (r : Router) : ∀ gs : List (SourceModule × List Change),
    (r.dispatchGroups gs).dispatched = (gs.filter fun g => (r.engine? g.1.project).isSome).length ∧
      (r.dispatchGroups gs).dropped = (gs.filter fun g => (r.engine? g.1.project).isNone).length
  | [] => ⟨rfl, rfl⟩
  | (m, cs) :: gs => by
    obtain ⟨hdispatched, hdropped⟩ := counts_dispatchGroups r gs
    rw [Router.dispatchGroups, List.filter_cons, List.filter_cons]
    cases r.engine? m.project with
    | none => exact ⟨hdispatched, congrArg (· + 1) hdropped⟩
    | some e => exact ⟨congrArg (· + 1) hdispatched, hdropped⟩

/-- The groups of some kind of module that two lists of changes come to together are no fewer than those that
one of them comes to, and no more than those of one and those of the other. -/
theorem length_groups_append (P : SourceModule → Bool) (hP : ∀ m n, m.Same n → P m = P n)
    (cs cs' : List Change) :
    let count (cs : List Change) := ((Batch.ofChanges cs).groups.filter fun g => P g.1).length
    max (count cs) (count cs') ≤ count (cs ++ cs') ∧ count (cs ++ cs') ≤ count cs + count cs' := by
  intro count
  have hcount (cs : List Change) :
      count cs = (SourceModule.firsts ((cs.filter fun c => P c.module).map (·.module))).length := by
    show ((Batch.ofChanges cs).groups.filter fun g => P g.1).length = _
    rw [Batch.filter_groups_ofChanges P hP]
    exact List.length_map _
  rw [hcount, hcount, hcount, List.filter_append, List.map_append]
  exact SourceModule.length_firsts_append _ _

/-! ## Two runs instead of one -/

/-- What two runs deliver together that one run delivers. -/
structure Outcome.Splits (o o₁ o₂ : Outcome) : Prop where
  mutations : o.summary.mutations = o₁.summary.mutations + o₂.summary.mutations
  changes : o.summary.changes = o₁.summary.changes + o₂.summary.changes
  delivered : ∀ e m, deliveredTo o.calls e m = deliveredTo o₁.calls e m ++ deliveredTo o₂.calls e m
  dispatched : max o₁.summary.dispatched o₂.summary.dispatched ≤ o.summary.dispatched ∧
    o.summary.dispatched ≤ o₁.summary.dispatched + o₂.summary.dispatched
  dropped : max o₁.summary.dropped o₂.summary.dropped ≤ o.summary.dropped ∧
    o.summary.dropped ≤ o₁.summary.dropped + o₂.summary.dropped

/-- Changes that are sent together come to what they come to one part after the other. -/
theorem ofBatch_splits (r : Router) (n n' : Nat) (cs cs' : List Change) :
    (Outcome.ofBatch r (n + n') (.ofChanges (cs ++ cs'))).Splits (.ofBatch r n (.ofChanges cs))
      (.ofBatch r n' (.ofChanges cs')) where
  mutations := rfl
  changes := by
    show (Batch.ofChanges (cs ++ cs')).size = (Batch.ofChanges cs).size + (Batch.ofChanges cs').size
    rw [Batch.size_ofChanges, Batch.size_ofChanges, Batch.size_ofChanges, List.length_append]
  delivered e m := by
    rw [deliveredTo_ofBatch, deliveredTo_ofBatch, deliveredTo_ofBatch, List.filter_append]
    split
    · rfl
    · rfl
  dispatched := by
    have hcount (n : Nat) (cs : List Change) : (Outcome.ofBatch r n (.ofChanges cs)).summary.dispatched = _ :=
      (counts_dispatchGroups r (Batch.ofChanges cs).groups).1
    rw [hcount, hcount, hcount]
    exact length_groups_append (fun m => (r.engine? m.project).isSome) (fun m n same => by rw [same.2.1]) cs cs'
  dropped := by
    have hcount (n : Nat) (cs : List Change) : (Outcome.ofBatch r n (.ofChanges cs)).summary.dropped = _ :=
      (counts_dispatchGroups r (Batch.ofChanges cs).groups).2
    rw [hcount, hcount, hcount]
    exact length_groups_append (fun m => (r.engine? m.project).isNone) (fun m n same => by rw [same.2.1]) cs cs'

/-- One run after the other. -/
def runBoth (h : Host σ) (d : Disk) (x : Expander) (classify : Classifier) (ms ns : List Mutation) :
    StateM σ (Option Outcome × Option Outcome) := do
  let first ← run h d x classify ms
  let second ← run h d x classify ns
  pure (first, second)

theorem runBoth_inStep {τ : Type} {R : σ → τ → Prop} {lost : σ → Prop} {h : Host σ} {h' : Host τ}
    (hh : h.RunInStep R lost h') (d : Disk) (x : Expander) (classify : Classifier) (ms ns : List Mutation) :
    InStep R lost (runBoth h d x classify ms ns) (runBoth h' d x classify ms ns) := by
  unfold runBoth
  refine (run_inStep hh d x classify ms).bind fun first => ?_
  exact (run_inStep hh d x classify ns).bind fun second => .pure _

/-- Whether a batch is run as a whole or in two parts, one after the other, makes no difference to what any
module is sent by any engine, for every host whose answers are the same throughout and agree on the
spellings of paths that are met. The two runs make nothing of the batch exactly if the one does: if some
mutation cannot be classified. -/
theorem run_append (h : Host σ) (d : Disk) (x : Expander) (classify : Classifier) (ms ns : List Mutation) (s : σ)
    (a : Answers) (still : AllOf a ((run h.recorded d x classify (ms ++ ns)).run (s, [])).2.2)
    (still' : AllOf a ((runBoth h.recorded d x classify ms ns).run (s, [])).2.2)
    (agree : a.SpellingsAgree (Answers.concerned d x classify (ms ++ ns))) :
    let whole := ((run h d x classify (ms ++ ns)).run s).1
    let parts := ((runBoth h d x classify ms ns).run s).1
    (whole = none ↔ parts.1 = none ∨ parts.2 = none) ∧
      (whole ≠ none → ∃ o o₁ o₂, whole = some o ∧ parts = (some o₁, some o₂) ∧ o.Splits o₁ o₂) := by
  intro whole parts
  have hwhole : whole = ((run a.host d x classify (ms ++ ns)).run ()).1 :=
    value_of_allOf (fun h => run h d x classify (ms ++ ns)) (fun hh => run_inStep hh d x classify _) still
  have hparts : parts = (((run a.host d x classify ms).run ()).1, ((run a.host d x classify ns).run ()).1) :=
    value_of_allOf (fun h => runBoth h d x classify ms ns) (fun hh => runBoth_inStep hh d x classify ms ns) still'
  rw [hwhole, hparts]
  refine ⟨?_, fun hsome => ?_⟩
  · simp only [run_eq_none_iff, List.mem_append, or_and_right, exists_or]
  · have hall : ∀ m ∈ ms ++ ns, classify m ≠ .failed := fun m hm hf =>
      hsome ((run_eq_none_iff ..).2 ⟨m, hm, hf⟩)
    have hms : ∀ m ∈ ms, classify m ≠ .failed := fun m hm => hall m (List.mem_append_left _ hm)
    have hns : ∀ m ∈ ns, classify m ≠ .failed := fun m hm => hall m (List.mem_append_right _ hm)
    -- mutations come to their changes one by one, so it does not matter where the list is split
    have hchanges {part : List Mutation} (hpart : part ⊆ ms ++ ns) :
        a.changes d x a.openProjects classify [] part =
          part.flatMap (a.changesBy d x a.openProjects classify) :=
      agree.changes_eq (List.nil_subset _) (Answers.concerned_subset hpart)
    rw [run_answers a hall, run_answers a hms, run_answers a hns]
    refine ⟨_, _, _, rfl, rfl, ?_⟩
    rw [hchanges (List.Subset.refl _), hchanges (List.subset_append_left _ _),
      hchanges (List.subset_append_right _ _), List.flatMap_append, List.length_append]
    exact ofBatch_splits _ _ _ _ _

/-- The directory `/w` is created and then `/w/a` modified, which is spelled `/w//a`. As one batch this is one
call, and as two batches two. -/
theorem run_append_watched :
    let ms : List Mutation := [.created (.directory ⟨[47, 119]⟩)]
    let ns : List Mutation := [.modified (.file ⟨[47, 119, 47, 47, 97]⟩)]
    let x := Expander.ofInclusion .all
    let classify := Phase.settled.classifier
    let host := WatchedRegistry.host
    let start := WatchedRegistry.plain .sample
    let a := Registry.sample.answers
    AllOf a ((run host.recorded .sample x classify (ms ++ ns)).run (start, [])).2.2 ∧
    AllOf a ((runBoth host.recorded .sample x classify ms ns).run (start, [])).2.2 ∧
    a.SpellingsAgree (Answers.concerned .sample x classify (ms ++ ns)) ∧
    ∃ o o₁ o₂, ((run host .sample x classify (ms ++ ns)).run start).1 = some o ∧
      ((runBoth host .sample x classify ms ns).run start).1 = (some o₁, some o₂) ∧ o.Splits o₁ o₂ ∧
      o.calls.length = 1 ∧ o₁.calls.length + o₂.calls.length = 2 := by
  intro ms ns x classify host start a
  have still : AllOf a ((run host.recorded .sample x classify (ms ++ ns)).run (start, [])).2.2 := by decide +kernel
  have still' : AllOf a ((runBoth host.recorded .sample x classify ms ns).run (start, [])).2.2 := by decide +kernel
  have agree : a.SpellingsAgree (Answers.concerned .sample x classify (ms ++ ns)) := by
    unfold Answers.SpellingsAgree
    decide +kernel
  obtain ⟨o, o₁, o₂, ho, hparts, splits⟩ :=
    (run_append host .sample x classify ms ns start a still still' agree).2 (by decide +kernel)
  have one : (((run host .sample x classify (ms ++ ns)).run start).1.map (·.calls.length)) = some 1 := by
    decide +kernel
  have two : (((runBoth host .sample x classify ms ns).run start).1.1.map (·.calls.length),
      ((runBoth host .sample x classify ms ns).run start).1.2.map (·.calls.length)) = (some 1, some 1) := by
    decide +kernel
  rw [ho] at one
  rw [hparts] at two
  simp only [Option.map_some, Prod.mk.injEq, Option.some.injEq] at one two
  exact ⟨still, still', agree, o, o₁, o₂, ho, hparts, splits, one, by rw [two.1, two.2]⟩

end ChangeRelay
