/-
Projects that are opened later. A project that was not registered joins the others at the end
(`Registry.Joined`), so it is asked about an entry only when none of them has claimed it. What they are told of
is attributed to them as before; what the newcomer is told of would have been attributed to nobody. Where
the answers about metadata agree on spellings, a run on the registry with the newcomer makes the same
calls to the others as a run on the one without, in the same order and with the same changes
(`Registry.run_undisturbed`).
-/
import ChangeRelay.Proofs.Host.History
import ChangeRelay.Proofs.Relay.Metadata
import ChangeRelay.Proofs.Relay.Runs
import ChangeRelay.Proofs.Relay.Spellings

namespace ChangeRelay

namespace Registry

variable {r r' : Registry} {p q : ProjectId}

/-! ## A project joins -/

/-- A registry is another one that a project has joined: its rows come last and hold modules of its own. -/
structure Joined (q : ProjectId) (r r' : Registry) : Prop where
  unknown : ∀ e ∈ r.projects, e.1 ≠ q
  metadata : r'.metadata = r.metadata
  projects : ∃ rows : List (ProjectId × Project), r'.projects = r.projects ++ rows ∧
    ∀ e ∈ rows, e.1 = q ∧ ∀ m ∈ e.2.modules, m.project = q

theorem joined_self (hq : r.get? q = none) : r.Joined q r := by
  refine ⟨fun e he heq => ?_, rfl, [], (List.append_nil _).symm, nofun⟩
  have hnone : r.projects.find? (fun e => e.1 == q) = none := Option.map_eq_none_iff.1 hq
  simpa [heq] using List.find?_eq_none.1 hnone e he

theorem Joined.update (h : r.Joined q r') (f : Project → Project)
    (hf : ∀ s, ∀ m ∈ (f s).modules, m ∈ s.modules ∨ m.project = q) : r.Joined q (r'.update q f) := by
  obtain ⟨unknown, metadata, rows, hrows, hown⟩ := h
  refine ⟨unknown, metadata, rows.map fun e => if e.1 == q then (e.1, f e.2) else e, ?_, ?_⟩
  · have hself : (r.projects.map fun e => if e.1 == q then (e.1, f e.2) else e) = r.projects :=
      (List.map_congr_left fun e he => if_neg (by simpa using unknown e he)).trans (List.map_id _)
    show r'.projects.map _ = _
    rw [hrows, List.map_append, hself]
  · intro e he
    obtain ⟨e', he', rfl⟩ := List.mem_map.1 he
    obtain ⟨hkey, hmodules⟩ := hown e' he'
    rw [if_pos (by simpa using hkey)]
    refine ⟨hkey, fun m hm => ?_⟩
    rcases hf e'.2 m hm with hm | hm
    · exact hmodules m hm
    · exact hm

/-- What is done to a project that has joined leaves the others as they are. -/
theorem Joined.perform (h : r.Joined q r') {o : Operation} (ho : o.project = q) : r.Joined q (r'.perform o) := by
  have sameModules (f : Project → Project) (hf : ∀ s, (f s).modules = s.modules) : r.Joined q (r'.update q f) :=
    h.update f fun s m hm => .inl (hf s ▸ hm)
  cases o with
  | openProject p =>
    obtain rfl : p = q := ho
    show r.Joined p (r'.openProject p)
    unfold openProject
    split
    · exact sameModules (fun s => { s with disposed := false }) fun _ => rfl
    · obtain ⟨unknown, metadata, rows, hrows, hown⟩ := h
      refine ⟨unknown, metadata, rows ++ [(p, .fresh)], ?_, fun e he => ?_⟩
      · rw [hrows, List.append_assoc]
      · rcases List.mem_append.1 he with he | he
        · exact hown e he
        · rw [List.mem_singleton.1 he]
          exact ⟨rfl, nofun⟩
  | dispose p =>
    obtain rfl : p = q := ho
    exact sameModules (fun s => { s with disposed := true }) fun _ => rfl
  | close p =>
    obtain rfl : p = q := ho
    obtain ⟨unknown, metadata, rows, hrows, hown⟩ := h
    refine ⟨unknown, metadata, rows.filter fun e => !(e.1 == p), ?_, fun e he => hown e (List.mem_filter.1 he).1⟩
    have hself : r.projects.filter (fun e => !(e.1 == p)) = r.projects :=
      List.filter_eq_self.2 fun e he => by simpa using unknown e he
    show r'.projects.filter _ = _
    rw [hrows, List.filter_append, hself]
  | addModule p id root =>
    obtain rfl : p = q := ho
    show r.Joined p (r'.addModule p id root).2
    unfold addModule
    split
    · refine h.update (fun s => { s with modules := s.modules ++ [⟨id, p, root⟩] }) fun s m hm => ?_
      rcases List.mem_append.1 hm with hm | hm
      · exact .inl hm
      · rw [List.mem_singleton.1 hm]
        exact .inr rfl
    · exact h
  | startEngine p e =>
    obtain rfl : p = q := ho
    show r.Joined p (r'.startEngine p e).2
    unfold startEngine
    split
    · exact sameModules (fun s => { s with engine := some e }) fun _ => rfl
    · exact h
  | stopEngine p =>
    obtain rfl : p = q := ho
    exact sameModules (fun s => { s with engine := none }) fun _ => rfl

theorem Joined.performAll : ∀ (ops : List Operation) {r' : Registry}, r.Joined q r' →
    (∀ o ∈ ops, o.project = q) → r.Joined q (r'.performAll ops)
  | [], _, h, _ => h
  | o :: ops, _, h, hops =>
    Joined.performAll ops (h.perform (hops o List.mem_cons_self)) fun o ho => hops o (List.mem_cons_of_mem _ ho)

/-! ## What is told -/

theorem Joined.get?_of_ne (h : r.Joined q r') (hp : p ≠ q) : r'.get? p = r.get? p := by
  obtain ⟨-, -, rows, hrows, hown⟩ := h
  have hnone : rows.find? (fun e => e.1 == p) = none := by
    refine List.find?_eq_none.2 fun e he => ?_
    rw [(hown e he).1]
    simpa using fun h : q = p => hp h.symm
  unfold get?
  rw [hrows, List.find?_append, hnone, Option.or_none]

theorem Joined.isDisposed_self (h : r.Joined q r') : r.isDisposed q = true := by
  have hnone : r.get? q = none :=
    Option.map_eq_none_iff.2 (List.find?_eq_none.2 fun e he => by simpa using h.unknown e he)
  rw [isDisposed, hnone]

/-- The modules that are found in a project that has joined are its own. -/
theorem Joined.findModule_self (h : r.Joined q r') {path : Path} {m : SourceModule}
    (hm : r'.findModule q path = some m) : m.project = q := by
  unfold findModule at hm
  cases hs : r'.get? q with
  | none => rw [hs] at hm; cases hm
  | some s =>
    rw [hs] at hm
    have hmem : m ∈ s.modules := (List.mem_filter.1 (mem_of_deepest? hm)).1
    obtain ⟨unknown, -, rows, hrows, hown⟩ := h
    obtain ⟨⟨p, s'⟩, hfind, rfl⟩ := Option.map_eq_some_iff.1 hs
    have hkey : p = q := by simpa using List.find?_some hfind
    have hrow : (p, s') ∈ r.projects ++ rows := hrows ▸ List.mem_of_find?_eq_some hfind
    rcases List.mem_append.1 hrow with hrow | hrow
    · exact absurd hkey (unknown _ hrow)
    · exact (hown _ hrow).2 m hmem

theorem Joined.openProjects (h : r.Joined q r') :
    ∃ qs, r'.openProjects = r.openProjects ++ qs ∧ (∀ p ∈ qs, p = q) ∧ ∀ p ∈ r.openProjects, p ≠ q := by
  obtain ⟨unknown, -, rows, hrows, hown⟩ := h
  refine ⟨(rows.filter fun e => !e.2.disposed).map (·.1), ?_, fun p hp => ?_, fun p hp => ?_⟩
  · unfold Registry.openProjects
    rw [hrows, List.filter_append, List.map_append]
  · obtain ⟨e, he, rfl⟩ := List.mem_map.1 hp
    exact (hown e (List.mem_filter.1 he).1).1
  · obtain ⟨e, he, rfl⟩ := List.mem_map.1 hp
    exact unknown e (List.mem_filter.1 he).1

theorem Joined.isDisposed_of_ne (h : r.Joined q r') (hp : p ≠ q) : r'.isDisposed p = r.isDisposed p := by
  unfold isDisposed
  rw [h.get?_of_ne hp]

theorem Joined.engine?_of_ne (h : r.Joined q r') (hp : p ≠ q) : r'.answers.engine? p = r.answers.engine? p := by
  obtain ⟨qs, hopen, hqs, -⟩ := h.openProjects
  have hmem : p ∈ r'.openProjects ↔ p ∈ r.openProjects := by
    rw [hopen, List.mem_append]
    exact or_iff_left fun hmem => hp (hqs p hmem)
  have hstarted : r'.engineIfStarted p = r.engineIfStarted p := by
    unfold engineIfStarted
    rw [h.get?_of_ne hp]
  show (if p ∈ r'.openProjects then r'.engineIfStarted p else none) = if p ∈ r.openProjects then _ else _
  rw [hstarted, if_congr hmem rfl rfl]
  rfl

/-- An entry has the owner that it had without the newcomer; if it had none, it may be the newcomer's. -/
theorem Joined.owner? (h : r.Joined q r') (e : Entry) :
    r'.answers.owner? e r'.openProjects = r.answers.owner? e r.openProjects ∨
      r.answers.owner? e r.openProjects = none ∧
        ∃ m, r'.answers.owner? e r'.openProjects = some m ∧ m.project = q := by
  obtain ⟨qs, hopen, hqs, hold⟩ := h.openProjects
  -- the projects from before are asked first, and answer as before
  have hfront : r'.answers.owner? e r.openProjects = r.answers.owner? e r.openProjects := by
    unfold Answers.owner?
    have hfilter : (r.openProjects.filter fun p => !r'.answers.isDisposed p) =
        r.openProjects.filter fun p => !r.answers.isDisposed p :=
      List.filter_congr fun p hp => congrArg (!·) (h.isDisposed_of_ne (hold p hp))
    rw [hfilter, ← List.head?_filterMap, ← List.head?_filterMap]
    refine congrArg List.head? (List.filterMap_congr fun p hp => ?_)
    show r'.findModule p e.path = r.findModule p e.path
    unfold findModule
    rw [h.get?_of_ne (hold p (List.mem_filter.1 hp).1)]
  have happend : r'.answers.owner? e r'.openProjects =
      (r.answers.owner? e r.openProjects).or (r'.answers.owner? e qs) := by
    rw [← hfront, hopen]
    unfold Answers.owner?
    rw [List.filter_append, List.findSome?_append]
  rw [happend]
  -- so the newcomer is asked only about what none of them has claimed
  cases r.answers.owner? e r.openProjects with
  | some m => exact .inl rfl
  | none =>
    cases hm : r'.answers.owner? e qs with
    | none => exact .inl rfl
    | some m =>
      refine .inr ⟨rfl, m, rfl, ?_⟩
      obtain ⟨p, hp, hfind⟩ := List.exists_of_findSome?_eq_some hm
      obtain rfl : p = q := hqs p (List.mem_filter.1 hp).1
      exact h.findModule_self hfind

/-! ## What is gathered -/

variable {d : Disk} {x : Expander} {classify : Classifier} {ms : List Mutation} {k : ChangeKind}
  {m : SourceModule} {asked fs : List Entry}

theorem Joined.countsAsMetadata (h : r.Joined q r') (asked : List Entry) :
    r'.answers.countsAsMetadata asked = r.answers.countsAsMetadata asked := by
  funext f
  exact congrArg (fun rules : MetadataRules => rules.covers (firstAsked asked f).path) h.metadata

theorem Joined.change? (h : r.Joined q r') : r'.answers.change? asked m k = r.answers.change? asked m k := by
  unfold Answers.change?
  rw [h.countsAsMetadata]

/-- No files are found for the newcomer as long as it is not registered. -/
theorem Joined.found_self (h : r.Joined q r') (hm : m.project = q) (e : Entry) : r.answers.found d x m e = [] :=
  if_pos (hm ▸ h.isDisposed_self)

theorem Joined.found_of_ne (h : r.Joined q r') (hm : m.project ≠ q) (e : Entry) :
    r'.answers.found d x m e = r.answers.found d x m e := by
  have hdisposed : r'.answers.isDisposed m.project = r.answers.isDisposed m.project := h.isDisposed_of_ne hm
  rw [Answers.found, Answers.found, hdisposed]

/-- Changes to files of one module are all to the newcomer or all to another project. -/
theorem filter_changes_of_module (a : Answers) :
    ((fs.filterMap (a.change? asked m k)).filter fun c => decide (c.module.project ≠ q)) =
      if m.project = q then [] else fs.filterMap (a.change? asked m k) := by
  split
  · rename_i hm
    refine List.filter_eq_nil_iff.2 fun c hc => ?_
    rw [Answers.module_of_mem_filterMap c hc, hm]
    simp
  · rename_i hm
    refine List.filter_eq_self.2 fun c hc => ?_
    rw [Answers.module_of_mem_filterMap c hc]
    exact decide_eq_true hm

/-- Apart from changes to the newcomer, an entry comes to the changes that it came to without it. -/
theorem Joined.ofEntry (h : r.Joined q r') (e : Entry) :
    ((r'.answers.ofEntry d x r'.openProjects [] k e).2.filter fun c => decide (c.module.project ≠ q)) =
      (r.answers.ofEntry d x r.openProjects [] k e).2 := by
  unfold Answers.ofEntry Answers.target?
  rw [h.countsAsMetadata]
  cases r.answers.countsAsMetadata [] e with
  | true => rfl
  | false =>
    rw [if_neg Bool.false_ne_true, if_neg Bool.false_ne_true]
    rcases h.owner? e with hsame | ⟨hnone, m, hm, hproject⟩
    · rw [hsame]
      cases r.answers.owner? e r.openProjects with
      | none => rfl
      | some m =>
        dsimp only
        rw [filter_changes_of_module]
        by_cases hm : m.project = q
        · rw [if_pos hm, h.found_self hm]
          rfl
        · rw [if_neg hm, h.found_of_ne hm, h.change?]
    · rw [hm, hnone]
      exact (filter_changes_of_module _).trans (if_pos hproject)

theorem Joined.changes (h : r.Joined q r')
    (agree : r.answers.SpellingsAgree (Answers.concerned d x classify ms)) :
    ((r'.answers.changes d x r'.openProjects classify [] ms).filter fun c => decide (c.module.project ≠ q)) =
      r.answers.changes d x r.openProjects classify [] ms := by
  have agree' : r'.answers.SpellingsAgree (Answers.concerned d x classify ms) := fun e he f hf same => by
    have halike : r.metadata.covers e.path = r.metadata.covers f.path := agree e he f hf same
    show r'.metadata.covers e.path = r'.metadata.covers f.path
    rw [h.metadata, halike]
  rw [agree.changes_eq (List.nil_subset _) (List.Subset.refl _),
    agree'.changes_eq (List.nil_subset _) (List.Subset.refl _), List.filter_flatMap]
  refine List.flatMap_congr fun m _ => ?_
  unfold Answers.changesBy
  cases classify m with
  | counts k => exact h.ofEntry (m.primary k)
  | ignored => rfl
  | failed => rfl

/-- Apart from those to the newcomer, the calls that changes come to are those of the changes to others. -/
theorem Joined.calls (h : r.Joined q r') (n n' : Nat) (cs : List Change) :
    ((Outcome.ofBatch r'.router n' (.ofChanges cs)).calls.filter fun c => decide (c.module.project ≠ q)) =
      (Outcome.ofBatch r.router n (.ofChanges (cs.filter fun c => decide (c.module.project ≠ q)))).calls := by
  have hcalls (r : Registry) (n : Nat) (cs : List Change) : (Outcome.ofBatch r.router n (.ofChanges cs)).calls =
      (Batch.ofChanges cs).groups.filterMap fun g => (r.answers.engine? g.1.project).map fun e => ⟨e, g.1, g.2⟩ := by
    rw [calls_ofBatch]
    refine List.filterMap_congr fun g _ => ?_
    exact congrArg (Option.map _) (r.answers.engine?_router g.1.project)
  have hothers := Batch.filter_groups_ofChanges (fun m => decide (m.project ≠ q))
    (fun m n same => by rw [same.2.1]) cs
  rw [hcalls, hcalls, ← hothers, List.filter_filterMap, List.filterMap_filter]
  refine List.filterMap_congr fun g _ => ?_
  by_cases hg : g.1.project = q
  · rw [if_neg (by simp [hg])]
    cases r'.answers.engine? g.1.project <;> simp [Option.filter, hg]
  · rw [h.engine?_of_ne hg, if_pos (decide_eq_true hg)]
    cases r.answers.engine? g.1.project <;> simp [Option.filter, hg]

end Registry

/-- What happens to a project that is not registered makes no difference to the others, whatever they are: it is
opened, modules are added and engines started, it is disposed or closed. If the answers about metadata
agree on the spellings of paths that are met, a run makes the same calls to the other projects as if none
of it had happened, in the same order and with the same changes. -/
theorem Registry.run_undisturbed (r : Registry) (q : ProjectId) (unknown : r.get? q = none) (ops : List Operation)
    (own : ∀ o ∈ ops, o.project = q) (d : Disk) (x : Expander) (classify : Classifier) (ms : List Mutation)
    (agree : r.answers.SpellingsAgree (Answers.concerned d x classify ms)) :
    ((run Registry.host d x classify ms).run (r.performAll ops)).1.map
        (fun o => o.calls.filter fun c => decide (c.module.project ≠ q)) =
      ((run Registry.host d x classify ms).run r).1.map (·.calls) := by
  have joined : r.Joined q (r.performAll ops) := (joined_self unknown).performAll ops own
  by_cases hfail : ∃ m ∈ ms, classify m = .failed
  · rw [(run_eq_none_iff ..).2 hfail, (run_eq_none_iff ..).2 hfail]
    rfl
  · have hc : ∀ m ∈ ms, classify m ≠ .failed := fun m hm hf => hfail ⟨m, hm, hf⟩
    rw [run_registry hc, run_registry hc, Option.map_some, Option.map_some, joined.calls ms.length ms.length,
      joined.changes agree]

/-- A project `q` with the module `/w/v` joins the project `p` with the module `/w`, which goes on to be called for
all files below `/w`. Files below `/v`, which had no owner, are another module's of `q`. -/
theorem Registry.run_undisturbed_sample :
    let q : ProjectId := ⟨"q"⟩
    let ops : List Registry.Operation := [.openProject q, .addModule q ⟨"n"⟩ ⟨[47, 119, 47, 118]⟩,
      .addModule q ⟨"o"⟩ ⟨[47, 118]⟩, .startEngine q ⟨"f"⟩]
    let ms : List Mutation := [.created (.file ⟨[47, 118, 47, 97]⟩), .created (.file ⟨[47, 119, 47, 118, 47, 97]⟩)]
    let x := Expander.ofInclusion .all
    let classify := Phase.settled.classifier
    let calls r := ((run Registry.host (.empty []) x classify ms).run r).1.map (·.calls)
    let r := Registry.sample
    let r' := r.performAll ops
    r.get? q = none ∧ (∀ o ∈ ops, o.project = q) ∧
    r.answers.SpellingsAgree (Answers.concerned (.empty []) x classify ms) ∧
    (calls r').map (·.map (·.engine)) = some [⟨"f"⟩, ⟨"e"⟩] ∧
    (calls r').map (·.filter fun c => decide (c.module.project ≠ q)) = calls r := by
  intro q ops ms x classify calls r r'
  have unknown : r.get? q = none := by decide
  have own : ∀ o ∈ ops, o.project = q := by decide
  have agree : r.answers.SpellingsAgree (Answers.concerned (.empty []) x classify ms) := by
    unfold Answers.SpellingsAgree
    decide +kernel
  have undisturbed := Registry.run_undisturbed r q unknown ops own (.empty []) x classify ms agree
  exact ⟨unknown, own, agree, by decide +kernel, (Option.map_map _ _ _).trans undisturbed⟩

end ChangeRelay
