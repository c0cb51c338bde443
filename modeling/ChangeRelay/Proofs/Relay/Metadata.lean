/-
Metadata that is delivered. An answer about metadata counts for every path that is the same, while the
rules look at the text of a path. So a file is delivered although the rules cover its path, if another
spelling of the path that they do not cover came first; and it is delivered by some registry for all
rules that tell spellings apart. What holds for all rules is that a file is spared if they cover every
spelling of its path that is met (`neverDelivered_spellings`).
-/
import ChangeRelay.Proofs.Path.Components
import ChangeRelay.Proofs.Relay.Runs

namespace ChangeRelay

/-! ## Runs with a registry -/

/-- The engines that a registry tells at the start of a run. -/
def Registry.router (r : Registry) : Router :=
  Router.empty.learn (r.openProjects.map fun p => (p, r.engineIfStarted p))

section

variable {r : Registry} {d : Disk} {x : Expander} {classify : Classifier} {ms : List Mutation}

/-- A run with a registry sends the changes that are read off its answers. -/
theorem run_registry (hc : ∀ m ∈ ms, classify m ≠ .failed) :
    ((run Registry.host d x classify ms).run r).1 = some
      (.ofBatch r.router ms.length (.ofChanges (r.answers.changes d x r.openProjects classify [] ms))) := by
  have hstep := run_inStep (registry_runInStep r) d x classify ms
  rw [hstep.value_eq (t := ()) rfl, run_answers r.answers hc]
  rfl

theorem eq_ofBatch_of_run {o : Outcome} (ho : ((run Registry.host d x classify ms).run r).1 = some o) :
    o = .ofBatch r.router ms.length (.ofChanges (r.answers.changes d x r.openProjects classify [] ms)) := by
  have hfail : ∀ m ∈ ms, classify m ≠ .failed := fun m hm hf => by
    rw [(run_eq_none_iff ..).2 ⟨m, hm, hf⟩] at ho
    cases ho
  rw [run_registry hfail] at ho
  exact (Option.some.inj ho).symm

/-- The changes that are delivered by a run are those to projects with an engine. -/
theorem mem_ofBatch {router : Router} {n : Nat} {cs : List Change} {c : Change} :
    (∃ call ∈ (Outcome.ofBatch router n (.ofChanges cs)).calls, c ∈ call.changes) ↔
      c ∈ cs ∧ (router.engine? c.module.project).isSome := by
  rw [calls_ofBatch]
  constructor
  · rintro ⟨call, hcall, hmem⟩
    obtain ⟨g, hg, hgc⟩ := List.mem_filterMap.1 hcall
    obtain ⟨e, he, rfl⟩ := Option.map_eq_some_iff.1 hgc
    obtain ⟨hgs, -⟩ := Batch.mem_ofChanges hg
    rw [hgs] at hmem
    obtain ⟨hc, hs⟩ := List.mem_filter.1 hmem
    have hp : c.module.project = g.1.project := (of_decide_eq_true hs).2.1
    exact ⟨hc, by rw [hp, he]; rfl⟩
  · rintro ⟨hc, he⟩
    obtain ⟨e, he⟩ := Option.isSome_iff_exists.1 he
    obtain ⟨g, hg, hcg, hs⟩ := Batch.exists_mem_ofChanges hc
    rw [hs.2.1] at he
    exact ⟨_, List.mem_filterMap.2 ⟨g, hg, by rw [he]; rfl⟩, hcg⟩

/-- A change that is delivered is to a file that was met, and so was some spelling of its path that is
not covered. -/
theorem exists_concerned_of_delivered {o : Outcome} {call : Call} {c : Change}
    (ho : ((run Registry.host d x classify ms).run r).1 = some o) (hcall : call ∈ o.calls)
    (hc : c ∈ call.changes) :
    ∃ e f, Answers.Concerned d x classify ms e ∧ Answers.Concerned d x classify ms f ∧ f.path = c.path ∧
      e.path.Same f.path ∧ r.metadata.covers e.path = false := by
  obtain rfl := eq_ofBatch_of_run ho
  obtain ⟨hc, -⟩ := mem_ofBatch.1 ⟨call, hcall, hc⟩
  obtain ⟨m, hm, hk, f, hf, asked, hasked, hfc⟩ := Answers.mem_changes hc
  obtain ⟨-, hcount, hof⟩ := Answers.of_change? hfc
  have hpath : c.path = f.path := (Change.of_ofEntry? hof).2.2
  obtain ⟨hmem, hsame⟩ := firstAsked_same asked f
  have hconcerned : Answers.Concerned d x classify ms f := ⟨m, hm, c.kind, hk, .inr hf⟩
  refine ⟨firstAsked asked f, f, ?_, hconcerned, hpath.symm, hsame, hcount⟩
  rcases hmem with hself | hmem
  · rwa [hself]
  · exact (hasked _ hmem).resolve_left List.not_mem_nil

end

/-! ## Rules that tell spellings apart -/

namespace MetadataRules

/-- No registry with these rules ever delivers a file that they cover, whatever projects it holds. -/
def NeverDelivered (rules : MetadataRules) : Prop :=
  ∀ (r : Registry), r.metadata = rules → ∀ (d : Disk) (x : Expander) (classify : Classifier)
    (ms : List Mutation) (o : Outcome), ((run Registry.host d x classify ms).run r).1 = some o →
    ∀ call ∈ o.calls, ∀ c ∈ call.changes, rules.covers c.path = false

/-- The rules cover all spellings of a path or none. -/
def IgnoresSpelling (rules : MetadataRules) : Prop := ∀ p q : Path, p.Same q → rules.covers p = rules.covers q

variable {rules : MetadataRules}

theorem IgnoresSpelling.neverDelivered (h : rules.IgnoresSpelling) : rules.NeverDelivered := by
  intro r hr d x classify ms o ho call hcall c hc
  obtain ⟨e, f, -, -, hpath, hsame, hcovers⟩ := exists_concerned_of_delivered ho hcall hc
  rw [← hpath, ← h _ _ hsame, ← hr, hcovers]

/-- A registry with one module, which owns every path. -/
def owner (rules : MetadataRules) : Registry := .single rules ⟨"p"⟩ ⟨"m"⟩ ⟨[]⟩ ⟨"e"⟩

/-- The module of `owner`. -/
def ownerModule : SourceModule := ⟨⟨"m"⟩, ⟨"p"⟩, ⟨[]⟩⟩

theorem owner?_owner (rules : MetadataRules) (e : Entry) :
    rules.owner.answers.owner? e rules.owner.openProjects = some ownerModule := by
  have hfind : rules.owner.answers.findModule ⟨"p"⟩ e = some ownerModule := rfl
  show [⟨"p"⟩].findSome? (fun p => rules.owner.answers.findModule p e) = _
  rw [List.findSome?_cons, hfind]

theorem ofEntry?_owner {p : Path} (k : ChangeKind) (hp : p.bytes ≠ []) :
    ∃ c, Change.ofEntry? ownerModule (.file p) k = some c := by
  obtain ⟨relative, hr⟩ := Option.isSome_iff_exists.1 (Path.relativeTo?_isSome hp)
  exact ⟨_, Option.map_eq_some_iff.2 ⟨relative, hr, rfl⟩⟩

/-- A file that does not count as metadata is relayed. -/
theorem ofEntry_owner {asked : List Entry} {p : Path} (d : Disk) (k : ChangeKind) (hp : p.bytes ≠ [])
    (h : rules.owner.answers.countsAsMetadata asked (.file p) = false) :
    ∃ c, rules.owner.answers.ofEntry d (.ofInclusion .all) rules.owner.openProjects asked k (.file p) =
        ([.file p, .file p], [c]) ∧ c.path = p ∧ c.module = ownerModule := by
  obtain ⟨c, hc⟩ := ofEntry?_owner k hp
  obtain ⟨hmodule, -, hpath⟩ := Change.of_ofEntry? hc
  have hcount : rules.owner.answers.countsAsMetadata (asked ++ [.file p, .file p]) (.file p) = false := by
    rw [Answers.countsAsMetadata, firstAsked_append]; exact h
  have hchange : rules.owner.answers.change? (asked ++ [.file p, .file p]) ownerModule k (.file p) = some c := by
    have hfile : (Entry.file p).isDirectory = false := rfl
    rw [Answers.change?, hcount, hfile, Bool.or_false, if_neg Bool.false_ne_true, hc]
  have hfound : rules.owner.answers.found d (.ofInclusion .all) ownerModule (.file p) = [.file p] := rfl
  have htarget : rules.owner.answers.target? rules.owner.openProjects asked (.file p) = some ownerModule := by
    rw [Answers.target?, h, if_neg Bool.false_ne_true, owner?_owner]
  refine ⟨c, ?_, hpath, hmodule⟩
  have hasked : [Entry.file p].filter (fun f => !f.isDirectory) = [.file p] := rfl
  simp only [Answers.ofEntry, htarget, hfound, hasked, List.filterMap_cons_some hchange, List.filterMap_nil]

/-- Where one spelling of a path is not covered, a file that is named by it and then by another one is
delivered under both. -/
theorem NeverDelivered.covers_eq_false (h : rules.NeverDelivered) {p q : Path} (hpq : p.Same q)
    (hp : rules.covers p = false) : rules.covers q = false := by
  by_cases hbytes : p.bytes = []
  · have hq : q.bytes = [] :=
      Path.components_eq_nil_iff.1 (Eq.trans (Eq.symm hpq) (Path.components_eq_nil_iff.2 hbytes))
    have : p = q := by cases p; cases q; simp_all
    rwa [← this]
  · have hbytes' : q.bytes ≠ [] := fun hq =>
      hbytes (Path.components_eq_nil_iff.1 (Eq.trans hpq (Path.components_eq_nil_iff.2 hq)))
    -- the answer for `p` is kept and counts for `q`, so both files are relayed
    let classify : Classifier := fun _ => .counts .created
    let ms : List Mutation := [.created (.file p), .created (.file q)]
    have hasked : firstAsked [.file p, .file p] (.file q) = .file p := by
      unfold firstAsked
      rw [List.find?_cons_of_pos (by exact decide_eq_true hpq)]
      rfl
    have hcount₁ : rules.owner.answers.countsAsMetadata [] (.file p) = false := hp
    have hcount₂ : rules.owner.answers.countsAsMetadata [.file p, .file p] (.file q) = false := by
      rw [Answers.countsAsMetadata, hasked]; exact hp
    obtain ⟨c₁, h₁, -, -⟩ := ofEntry_owner (.empty []) .created hbytes hcount₁
    obtain ⟨c₂, h₂, hpath, hmodule⟩ := ofEntry_owner (.empty []) .created hbytes' hcount₂
    have hchanges : rules.owner.answers.changes (.empty []) (.ofInclusion .all) rules.owner.openProjects
        classify [] ms = [c₁, c₂] := by
      rw [Answers.changes_of_counts rfl, Answers.changes_of_counts rfl]
      show (Answers.ofEntry _ _ _ _ [] _ (.file p)).2 ++
        ((Answers.ofEntry _ _ _ _ ([] ++ (Answers.ofEntry _ _ _ _ [] _ (.file p)).1) _ (.file q)).2 ++ []) = _
      rw [h₁, List.nil_append, h₂]
      rfl
    have hrun : ((run Registry.host (.empty []) (.ofInclusion .all) classify ms).run rules.owner).1 =
        some (.ofBatch rules.owner.router ms.length (.ofChanges [c₁, c₂])) := by
      rw [← hchanges]
      exact run_registry fun _ _ => Verdict.noConfusion
    have hsent : c₂ ∈ [c₁, c₂] ∧ (rules.owner.router.engine? c₂.module.project).isSome :=
      ⟨List.mem_cons_of_mem _ List.mem_cons_self, by rw [hmodule]; rfl⟩
    obtain ⟨call, hcall, hc⟩ := mem_ofBatch.2 hsent
    rw [← hpath]
    exact h _ rfl _ _ _ _ _ hrun call hcall c₂ hc

theorem neverDelivered_iff_ignoresSpelling : rules.NeverDelivered ↔ rules.IgnoresSpelling := by
  refine ⟨fun h p q hpq => ?_, IgnoresSpelling.neverDelivered⟩
  cases hp : rules.covers p with
  | false => exact (h.covers_eq_false hpq hp).symm
  | true =>
    cases hq : rules.covers q with
    | false => exact hp.symm.trans (h.covers_eq_false hpq.symm hq)
    | true => rfl

/-- A run delivers nothing that is covered if of any two spellings of one path that it meets both are
covered or none is. Rules whose files are not delivered by any run are those that cover all spellings
of a path or none. -/
theorem neverDelivered_spellings (rules : MetadataRules) :
    (∀ (r : Registry), r.metadata = rules → ∀ (d : Disk) (x : Expander) (classify : Classifier)
      (ms : List Mutation) (o : Outcome), ((run Registry.host d x classify ms).run r).1 = some o →
      (∀ e f, Answers.Concerned d x classify ms e → Answers.Concerned d x classify ms f →
        e.path.Same f.path → rules.covers e.path = rules.covers f.path) →
      ∀ call ∈ o.calls, ∀ c ∈ call.changes, rules.covers c.path = false) ∧
    (rules.NeverDelivered ↔ rules.IgnoresSpelling) := by
  refine ⟨fun r hr d x classify ms o ho halike call hcall c hc => ?_, neverDelivered_iff_ignoresSpelling⟩
  obtain ⟨e, f, he, hf, hpath, hsame, hcovers⟩ := exists_concerned_of_delivered ho hcall hc
  rw [← hpath, ← halike e f he hf hsame, ← hr, hcovers]

/-- The standard rules cover `/w/a.iml` under both of its spellings here; of a batch with both, and with `/w/a`,
only the last is sent. -/
theorem neverDelivered_two_spellings :
    let paths : List Path := [⟨[47, 119, 47, 97, 46, 105, 109, 108]⟩,
      ⟨[47, 119, 47, 47, 97, 46, 105, 109, 108]⟩, ⟨[47, 119, 47, 97]⟩]
    paths.map MetadataRules.standard.covers = [true, true, false] ∧
    ∃ o, ((run Registry.host (.empty []) (.ofInclusion .all) Phase.afterMutation.classifier
        (paths.map fun p => .modified (.file p))).run
        (.single .standard ⟨"p"⟩ ⟨"m"⟩ ⟨[47, 119]⟩ ⟨"e"⟩)).1 = some o ∧
      o.calls.map (fun call => call.changes.map (·.path)) = [[⟨[47, 119, 47, 97]⟩]] ∧
      ∀ call ∈ o.calls, ∀ c ∈ call.changes, MetadataRules.standard.covers c.path = false := by
  intro paths
  have hmet : ∀ e, Answers.Concerned (.empty []) (.ofInclusion .all) Phase.afterMutation.classifier
      (paths.map fun p => .modified (.file p)) e → e.path ∈ paths := by
    rintro e ⟨m, hm, k, -, he⟩
    obtain ⟨p, hp, rfl⟩ := List.mem_map.1 hm
    have hfile : e = .file p := he.elim id List.mem_singleton.1
    rw [hfile]
    exact hp
  have halike : ∀ p ∈ paths, ∀ q ∈ paths, p.Same q →
      MetadataRules.standard.covers p = MetadataRules.standard.covers q := by decide +kernel
  refine ⟨by decide +kernel, _, run_registry (by decide), by decide +kernel, ?_⟩
  exact (neverDelivered_spellings .standard).1 (.single .standard ⟨"p"⟩ ⟨"m"⟩ ⟨[47, 119]⟩ ⟨"e"⟩) rfl _ _ _ _ _
    (run_registry (by decide)) fun e f he hf => halike _ (hmet e he) _ (hmet f hf)

/-- The standard rules cover `/w/a.iml`, and still that file is delivered if `/w/a.iml/` came before. -/
theorem metadata_delivered_after_other_spelling :
    ∃ o, ((run Registry.host (.empty []) (.ofInclusion .all) Phase.afterMutation.classifier
        [.modified (.file ⟨[47, 119, 47, 97, 46, 105, 109, 108, 47]⟩),
          .modified (.file ⟨[47, 119, 47, 97, 46, 105, 109, 108]⟩)]).run
        (.single .standard ⟨"p"⟩ ⟨"m"⟩ ⟨[47, 119]⟩ ⟨"e"⟩)).1 = some o ∧
      ∃ call ∈ o.calls, ∃ c ∈ call.changes, MetadataRules.standard.covers c.path = true := by
  refine ⟨_, run_registry (by decide), ?_⟩
  decide +kernel

end MetadataRules

end ChangeRelay
