/-
Modules of one name. A module is named within its project, but changes are grouped by name and root; so of two
namesakes with different roots each has a call of its own in a run that finds changes to both
(`Outcome.ofBatch_namesOnce_iff`). A registry takes a name a second time, with another root as well. Runs with it make
one call for each name exactly if it serves no two namesakes with different roots (`Registry.run_namesOnce_iff`); to
see that, a change is found to any module that owns a path at all, by a fresh name below that path
(`Registry.exists_owned_below`).
-/
import ChangeRelay.Proofs.Path.Names
import ChangeRelay.Proofs.Relay.Metadata
import ChangeRelay.Proofs.Relay.Owned
import Mathlib.Data.List.Pairwise
import Mathlib.Data.Set.Finite.Basic

namespace ChangeRelay

/-! ## Fresh names -/

namespace Path

variable {p : Path} {n : List UInt8}

/-- A name leads from a path to one that has it as one component more. -/
theorem components_join (hn : IsEntryName n) : (p.join ⟨n⟩).components = p.components ++ [.name n] := by
  have hname : components ⟨n⟩ = [.name n] := components_of_isEntryName hn
  have hrelative : ¬ isAbsolute ⟨n⟩ = true := by
    intro habsolute
    obtain ⟨rest, rfl⟩ : ∃ rest, n = separator :: rest := List.head?_eq_some_iff.1 (eq_of_beq habsolute)
    exact hn.1.2 List.mem_cons_self
  unfold join
  rw [if_neg hrelative]
  split
  · rename_i hp
    rw [hname, components_eq_nil_iff.2 hp, List.nil_append]
  · rename_i hp
    rw [components_child hp, hn.nameComponents]

theorem isEntryName_replicate (k : Nat) : IsEntryName (List.replicate (k + 1) 97) := by
  have hother {b : UInt8} (hb : b ≠ 97) : b ∉ List.replicate (k + 1) 97 := fun h => hb (List.eq_of_mem_replicate h)
  refine ⟨⟨by simp, hother (by decide)⟩, fun h => ?_, fun h => ?_⟩
  · exact hother (b := dot) (by decide) (h ▸ List.mem_cons_self)
  · exact hother (b := dot) (by decide) (h ▸ List.mem_cons_self)

/-- Of finitely many places some name below a path leads to none. -/
theorem exists_fresh_name (cs : List Component) (taken : List (List Component)) :
    ∃ n, IsEntryName n ∧ cs ++ [.name n] ∉ taken := by
  let place (k : Nat) : List Component := cs ++ [.name (List.replicate (k + 1) 97)]
  have hplace : place.Injective := by
    intro k l hkl
    simp only [place, List.append_cancel_left_eq, List.cons.injEq, Component.name.injEq, and_true] at hkl
    simpa using congrArg List.length hkl
  obtain ⟨_, ⟨k, rfl⟩, hfresh⟩ := (Set.infinite_range_of_injective hplace).exists_notMem_finset taken.toFinset
  exact ⟨_, isEntryName_replicate k, fun hmem => hfresh (List.mem_toFinset.2 hmem)⟩

end Path

/-! ## One call for each name -/

namespace SourceModule

variable {m n o : SourceModule}

/-- Two modules have the same name in the same project. -/
def Namesake (m n : SourceModule) : Prop := m.id = n.id ∧ m.project = n.project

instance (m n : SourceModule) : Decidable (Namesake m n) := inferInstanceAs (Decidable (_ ∧ _))

theorem Namesake.symm (h : m.Namesake n) : n.Namesake m := ⟨h.1.symm, h.2.symm⟩

theorem Namesake.trans (h : m.Namesake n) (h' : n.Namesake o) : m.Namesake o := ⟨h.1.trans h'.1, h.2.trans h'.2⟩

theorem Same.namesake (h : m.Same n) : m.Namesake n := ⟨h.1, h.2.1⟩

end SourceModule

/-- A group is of a module to which there is a change. -/
theorem Batch.exists_same_of_mem_groups {cs : List Change} {g : SourceModule × List Change}
    (hg : g ∈ (ofChanges cs).groups) : ∃ c ∈ cs, c.module.Same g.1 := by
  obtain ⟨hall, hne⟩ := mem_ofChanges hg
  obtain ⟨c, hc⟩ := List.exists_mem_of_ne_nil _ hne
  rw [hall] at hc
  obtain ⟨hc, hsame⟩ := List.mem_filter.1 hc
  exact ⟨c, hc, of_decide_eq_true hsame⟩

namespace Outcome

/-- No two calls are for one name, and a call has all changes to modules of its name, in their order. -/
structure NamesOnce (cs : List Change) (o : Outcome) : Prop where
  once : o.calls.Pairwise fun call call' => ¬ call.module.Namesake call'.module
  whole : ∀ call ∈ o.calls, call.changes = cs.filter fun c => decide (c.module.Namesake call.module)

variable {router : Router} {cs : List Change}

/-- The changes to a module whose project has an engine are to no namesake of it with another root. -/
def RootsAgree (router : Router) (cs : List Change) : Prop :=
  ∀ c ∈ cs, ∀ c' ∈ cs, (router.engine? c.module.project).isSome → c.module.Namesake c'.module →
    c.module.contentRoot.Same c'.module.contentRoot

theorem rootsAgree_of_once (mutations : Nat)
    (once : (ofBatch router mutations (.ofChanges cs)).calls.Pairwise fun call call' =>
      ¬ call.module.Namesake call'.module) : RootsAgree router cs := by
  intro c hc c' hc' hengine hnames
  obtain ⟨e, he⟩ := Option.isSome_iff_exists.1 hengine
  obtain ⟨call, hcall, -, hsame, -⟩ := (router.mem_dispatch_ofChanges hc).1 e he
  obtain ⟨call', hcall', -, hsame', -⟩ := (router.mem_dispatch_ofChanges hc').1 e (hnames.2 ▸ he)
  -- the calls are of namesakes, so they are one
  have hcalls : call = call' := by
    by_contra hne
    have : Std.Symm fun call call' : Call => ¬ call.module.Namesake call'.module :=
      ⟨fun _ _ h hnames => h hnames.symm⟩
    exact once.forall hcall hcall' hne (hsame.namesake.trans (hnames.trans hsame'.symm.namesake))
  exact hsame.2.2.symm.trans (hcalls ▸ hsame'.2.2)

/-- A group that is sent is of all modules of its name to which there are changes. -/
theorem RootsAgree.same_of_namesake (h : RootsAgree router cs) {g : SourceModule × List Change}
    (hg : g ∈ (Batch.ofChanges cs).groups) (hengine : (router.engine? g.1.project).isSome) {c : Change} (hc : c ∈ cs)
    (hnames : c.module.Namesake g.1) : c.module.Same g.1 := by
  obtain ⟨c₀, hc₀, hsame⟩ := Batch.exists_same_of_mem_groups hg
  have hroots := h c hc c₀ hc₀ (hnames.2 ▸ hengine) (hnames.trans hsame.symm.namesake)
  exact ⟨hnames.1, hnames.2, hroots.trans hsame.2.2⟩

theorem RootsAgree.namesOnce (mutations : Nat) (h : RootsAgree router cs) :
    (ofBatch router mutations (.ofChanges cs)).NamesOnce cs := by
  constructor
  · rw [calls_ofBatch, List.pairwise_filterMap]
    refine (Batch.ofChanges_pairwise cs).imp_of_mem fun {g g'} hg hg' hne call hcall call' hcall' hnames => ?_
    obtain ⟨e, he, rfl⟩ := Option.map_eq_some_iff.1 hcall
    obtain ⟨e', he', rfl⟩ := Option.map_eq_some_iff.1 hcall'
    obtain ⟨c, hc, hsame⟩ := Batch.exists_same_of_mem_groups hg
    have hengine : (router.engine? g'.1.project).isSome := by rw [he']; rfl
    exact hne (hsame.symm.trans (h.same_of_namesake hg' hengine hc (hsame.namesake.trans hnames)))
  · intro call hcall
    rw [calls_ofBatch] at hcall
    obtain ⟨g, hg, hcall⟩ := List.mem_filterMap.1 hcall
    obtain ⟨e, he, rfl⟩ := Option.map_eq_some_iff.1 hcall
    have hengine : (router.engine? g.1.project).isSome := by rw [he]; rfl
    refine (Batch.mem_ofChanges hg).1.trans (List.filter_congr fun c hc => decide_eq_decide.2 ?_)
    exact ⟨SourceModule.Same.namesake, h.same_of_namesake hg hengine hc⟩

/-- A batch makes one call for each name exactly if namesakes that are called for have the same root. -/
theorem ofBatch_namesOnce_iff (mutations : Nat) :
    (ofBatch router mutations (.ofChanges cs)).NamesOnce cs ↔ RootsAgree router cs :=
  ⟨fun h => rootsAgree_of_once mutations h.once, RootsAgree.namesOnce mutations⟩

end Outcome

/-! ## Where changes come from -/

/-- A change is to the owner of some entry. -/
theorem Answers.exists_owned_of_mem_changes {a : Answers} {d : Disk} {x : Expander} {projects : List ProjectId}
    {classify : Classifier} {c : Change} : ∀ {ms : List Mutation} {asked : List Entry},
    c ∈ a.changes d x projects classify asked ms → ∃ e, a.owner? e projects = some c.module
  | m :: ms, asked, hc => by
    by_cases hm : ∃ k, classify m = .counts k
    · obtain ⟨k, hm⟩ := hm
      rw [changes_of_counts hm] at hc
      rcases List.mem_append.1 hc with hc | hc
      · unfold ofEntry at hc
        split at hc
        · exact absurd hc List.not_mem_nil
        · rename_i o ho
          unfold target? at ho
          split at ho
          · cases ho
          · exact ⟨m.primary k, (module_of_mem_filterMap c hc).symm ▸ ho⟩
      · exact exists_owned_of_mem_changes hc
    · rw [changes_of_not_counts fun k hk => hm ⟨k, hk⟩] at hc
      exact exists_owned_of_mem_changes hc

namespace Registry

variable {r : Registry} {h : History} {m n : SourceModule} {p : Path} {ps : List ProjectId}

/-- The modules that are registered, those of disposed projects included. -/
def allModules (r : Registry) : List SourceModule := r.projects.flatMap (·.2.modules)

theorem findModule_congr {q : Path} (halike : ∀ o ∈ r.allModules, o.contains q = o.contains p) (i : ProjectId) :
    r.findModule i q = r.findModule i p := by
  unfold findModule
  cases hs : r.get? i with
  | none => rfl
  | some s =>
    obtain ⟨e, he, rfl⟩ := Option.map_eq_some_iff.1 hs
    have hmem := List.mem_of_find?_eq_some he
    exact congrArg deepest? (List.filter_congr fun o ho => halike o (List.mem_flatMap.2 ⟨e, hmem, ho⟩))

/-- A module that owns a path owns one below its content root, too. -/
theorem exists_owned_below (owned : r.answers.owner? (.file p) ps = some m) :
    ∃ q, r.answers.owner? (.file q) ps = some m ∧ ¬ q.Same m.contentRoot := by
  by_cases same : p.Same m.contentRoot
  · obtain ⟨n, hn, hfresh⟩ := Path.exists_fresh_name p.components (r.allModules.map (·.contentRoot.components))
    have hbelow : (p.join ⟨n⟩).components = p.components ++ [.name n] := Path.components_join hn
    -- no content root is at the fresh path, so it is owned as the path above it
    have halike : ∀ o ∈ r.allModules, o.contains (p.join ⟨n⟩) = o.contains p := by
      intro o ho
      have hne : o.contentRoot.components ≠ p.components ++ [.name n] := fun heq =>
        hfresh (heq ▸ List.mem_map_of_mem ho)
      unfold SourceModule.contains
      rw [Bool.eq_iff_iff, Path.startsWith_iff, Path.startsWith_iff, hbelow, List.prefix_concat_iff]
      exact or_iff_right hne
    refine ⟨p.join ⟨n⟩, ?_, fun hroot => ?_⟩
    · rw [← owned]
      exact congrArg (List.findSome? · _) (funext fun i => findModule_congr halike i)
    · have hlength := congrArg List.length (hbelow.symm.trans (hroot.trans same.symm))
      simp at hlength
  · exact ⟨p, owned, same⟩

/-! ## One call for each name in all runs -/

/-- A registry serves a module: the project has an engine, and the module owns some path. -/
structure Serves (r : Registry) (m : SourceModule) : Prop where
  engine : (r.engineIfStarted m.project).isSome
  owns : ∃ p : Path, r.answers.owner? (.file p) r.openProjects = some m

/-- The changes that a run gathers. -/
def changes (r : Registry) (d : Disk) (x : Expander) (classify : Classifier) (ms : List Mutation) : List Change :=
  r.answers.changes d x r.openProjects classify [] ms

/-- Every run makes one call for each name. -/
def NamesOnce (r : Registry) : Prop :=
  ∀ (d : Disk) (x : Expander) (classify : Classifier) (ms : List Mutation) (o : Outcome),
    ((run host d x classify ms).run r).1 = some o → o.NamesOnce (r.changes d x classify ms)

theorem Reflects.engine?_router (hr : r.Reflects h) (i : ProjectId) : r.router.engine? i = r.engineIfStarted i := by
  have hrouter : r.router.engine? i = if i ∈ r.openProjects then r.engineIfStarted i else none :=
    r.answers.engine?_router i
  rw [hrouter]
  split
  · rfl
  · rename_i hi
    refine (Option.eq_none_iff_forall_ne_some.2 fun e he => hi ?_).symm
    exact (hr.engineIfStarted.1 he).1

/-- A run makes one call for each name exactly if namesakes to which it finds changes have the same root. -/
theorem Reflects.namesOnce_iff (hr : r.Reflects h) {d : Disk} {x : Expander} {classify : Classifier}
    {ms : List Mutation} {o : Outcome} (ho : ((run host d x classify ms).run r).1 = some o) :
    o.NamesOnce (r.changes d x classify ms) ↔
      ∀ c ∈ r.changes d x classify ms, ∀ c' ∈ r.changes d x classify ms,
        (r.engineIfStarted c.module.project).isSome → c.module.Namesake c'.module →
          c.module.contentRoot.Same c'.module.contentRoot := by
  obtain rfl := eq_ofBatch_of_run ho
  refine (Outcome.ofBatch_namesOnce_iff ms.length).trans ?_
  unfold Outcome.RootsAgree
  simp only [hr.engine?_router]

theorem Reflects.serves_of_mem_changes {d : Disk} {x : Expander} {classify : Classifier} {ms : List Mutation}
    {c : Change} (hc : c ∈ r.changes d x classify ms) (hengine : (r.engineIfStarted c.module.project).isSome) :
    r.Serves c.module := by
  obtain ⟨e, he⟩ := Answers.exists_owned_of_mem_changes hc
  exact ⟨hengine, e.path, he⟩

/-- Where nothing is metadata, a file below its content root that a module owns comes to one change. -/
theorem Reflects.ofEntry_below (hr : r.Reflects h) (hrules : r.metadata = ⟨[]⟩) (d : Disk) (asked : List Entry)
    (k : ChangeKind) (owned : r.answers.owner? (.file p) r.openProjects = some m) (below : ¬ p.Same m.contentRoot) :
    ∃ now c, r.answers.ofEntry d (.ofInclusion .all) r.openProjects asked k (.file p) = (now, [c]) ∧
      c.module = m := by
  have hcovers (asked : List Entry) (e : Entry) : r.answers.countsAsMetadata asked e = false := by
    show r.metadata.covers _ = false
    rw [hrules]
    rfl
  obtain ⟨hopen, hcontains⟩ := hr.of_owner? owned
  have hsome : (r.answers.change? (asked ++ [.file p, .file p]) m k (.file p)).isSome := by
    have hroot : ¬ (Entry.file p).path.Same m.contentRoot := below
    rw [Answers.change?_isSome rfl hcontains, hcovers, decide_eq_false hroot]
    rfl
  obtain ⟨c, hc⟩ := Option.isSome_iff_exists.1 hsome
  refine ⟨[.file p, .file p], c, ?_, (Change.of_ofEntry? (Answers.of_change? hc).2.2).1⟩
  have hfiles : (Expander.ofInclusion .all).files d (.file p) = [.file p] := rfl
  rw [Answers.ofEntry_of_owned (hcovers asked _) owned hopen, hfiles, List.filterMap_cons_some hc, List.filterMap_nil]

/-- A run that finds a change to each of two modules. -/
theorem Reflects.exists_run_of_serves (hr : r.Reflects h) (hrules : r.metadata = ⟨[]⟩) (hm : r.Serves m)
    (hn : r.Serves n) : ∃ (x : Expander) (classify : Classifier) (ms : List Mutation) (o : Outcome) (c c' : Change),
      ((run host (.empty []) x classify ms).run r).1 = some o ∧ r.changes (.empty []) x classify ms = [c, c'] ∧
      c.module = m ∧ c'.module = n := by
  obtain ⟨p, owned⟩ := hm.owns
  obtain ⟨p, owned, below⟩ := exists_owned_below owned
  obtain ⟨q, owned'⟩ := hn.owns
  obtain ⟨q, owned', below'⟩ := exists_owned_below owned'
  obtain ⟨now, c, hc, hcm⟩ := hr.ofEntry_below hrules (.empty []) [] .created owned below
  obtain ⟨now', c', hc', hcn⟩ := hr.ofEntry_below hrules (.empty []) ([] ++ now) .created owned' below'
  refine ⟨.ofInclusion .all, fun _ => .counts .created, [.created (.file p), .created (.file q)], _, c, c',
    run_registry fun _ _ => Verdict.noConfusion, ?_, hcm, hcn⟩
  unfold changes
  rw [Answers.changes_of_counts rfl, Answers.changes_of_counts rfl]
  show (Answers.ofEntry _ _ _ _ [] _ (.file p)).2 ++
    ((Answers.ofEntry _ _ _ _ ([] ++ (Answers.ofEntry _ _ _ _ [] _ (.file p)).1) _ (.file q)).2 ++ []) = _
  rw [hc, hc']
  rfl

/-- A registry after any operations. A run makes one call for each name, with all changes to modules of that name,
exactly if no two namesakes to which it finds changes, and whose project has an engine, have different roots. All runs
do so, whatever counts as metadata, exactly if the registry serves no two namesakes with different roots. It serves
none if no name was given to modules of one project with different roots. -/
theorem run_namesOnce_iff (rules : MetadataRules) (h : History) :
    let r := (empty rules).performAll h
    (∀ d x classify ms o, ((run host d x classify ms).run r).1 = some o →
      (o.NamesOnce (r.changes d x classify ms) ↔
        ∀ c ∈ r.changes d x classify ms, ∀ c' ∈ r.changes d x classify ms,
          (r.engineIfStarted c.module.project).isSome → c.module.Namesake c'.module →
            c.module.contentRoot.Same c'.module.contentRoot)) ∧
    ((∀ rules', { r with metadata := rules' }.NamesOnce) ↔
      ∀ m n, r.Serves m → r.Serves n → m.Namesake n → m.contentRoot.Same n.contentRoot) ∧
    ((∀ i, ∀ m ∈ h.modules i, ∀ n ∈ h.modules i, m.id = n.id → m.contentRoot.Same n.contentRoot) →
      ∀ rules', { r with metadata := rules' }.NamesOnce) := by
  intro r
  have hr : r.Reflects h := by
    have := (empty_reflects rules).performAll h
    rwa [List.nil_append] at this
  have hr' (rules' : MetadataRules) : { r with metadata := rules' }.Reflects h := ⟨hr.get?, hr.order⟩
  have hserves : (∀ rules', { r with metadata := rules' }.NamesOnce) ↔
      ∀ m n, r.Serves m → r.Serves n → m.Namesake n → m.contentRoot.Same n.contentRoot := by
    constructor
    · intro honce m n hm hn hnames
      obtain ⟨x, classify, ms, o, c, c', ho, hchanges, rfl, rfl⟩ :=
        (hr' ⟨[]⟩).exists_run_of_serves rfl ⟨hm.engine, hm.owns⟩ ⟨hn.engine, hn.owns⟩
      have hroots := ((hr' ⟨[]⟩).namesOnce_iff ho).1 (honce ⟨[]⟩ _ _ _ _ _ ho)
      rw [hchanges] at hroots
      exact hroots c List.mem_cons_self c' (List.mem_cons_of_mem _ List.mem_cons_self) hm.engine hnames
    · intro hroots rules' d x classify ms o ho
      refine ((hr' rules').namesOnce_iff ho).2 fun c hc c' hc' hengine hnames => ?_
      have hm := Reflects.serves_of_mem_changes hc hengine
      have hn := Reflects.serves_of_mem_changes hc' (hnames.2 ▸ hengine)
      exact hroots _ _ ⟨hm.engine, hm.owns⟩ ⟨hn.engine, hn.owns⟩ hnames
  refine ⟨fun d x classify ms o => hr.namesOnce_iff, hserves, fun hroots => hserves.2 fun m n hm hn hnames => ?_⟩
  have hadded {m : SourceModule} (hm : r.Serves m) : m ∈ h.modules m.project := by
    obtain ⟨p, owned⟩ := hm.owns
    obtain ⟨i, -, hfind⟩ := List.exists_of_findSome?_eq_some owned
    obtain ⟨hmem, rfl⟩ := hr.findModule hfind
    exact hmem
  exact hroots m.project m (hadded hm) n (hnames.2 ▸ hadded hn) hnames.1

/-- The name `m` is taken for `/w` and then for `/v`, and a run with a change in each makes two calls for it. -/
theorem namesakes_called_twice :
    ∃ o, ((run host (.empty []) (.ofInclusion .all) Phase.afterMutation.classifier
        [.modified (.file ⟨[47, 119, 47, 97]⟩), .modified (.file ⟨[47, 118, 47, 98]⟩)]).run
        ((empty .standard).performAll [.openProject ⟨"p"⟩, .addModule ⟨"p"⟩ ⟨"m"⟩ ⟨[47, 119]⟩,
          .addModule ⟨"p"⟩ ⟨"m"⟩ ⟨[47, 118]⟩, .startEngine ⟨"p"⟩ ⟨"e"⟩])).1 = some o ∧
      o.calls.map (fun call => (call.module.project, call.module.id, call.changes.map (·.path))) =
        [(⟨"p"⟩, ⟨"m"⟩, [⟨[47, 119, 47, 97]⟩]), (⟨"p"⟩, ⟨"m"⟩, [⟨[47, 118, 47, 98]⟩])] := by
  refine ⟨_, run_registry (by decide), ?_⟩
  decide +kernel

end Registry
end ChangeRelay
