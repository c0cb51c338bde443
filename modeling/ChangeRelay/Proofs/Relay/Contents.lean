/-
Directories and their contents. A change to a directory comes to the same as changes of that kind to each
of the files that the directory is expanded to (`gather_directory`). For one thing, if no module has its
content root strictly below a directory, all that lies below belongs to the module that the directory
belongs to (`Registry.NoRootBelow.owner?_below`). For another, the paths of the directory and of the files
are different however they are compared (`Expander.eq_of_same`), so the answer about metadata that counts
for a file is the one about the file itself, whatever has been asked about before.
-/
import ChangeRelay.Proofs.Relay.Gather
import ChangeRelay.Proofs.Walk.Probed

namespace ChangeRelay

variable {d : Disk} {x : Expander} {p dir root : Path} {ns : List Name} {e f : Entry}

/-! ## The files below a directory -/

namespace Expander

/-- A file of a directory lies below it by the names of entries, and it stands for itself. -/
theorem of_mem_files_directory (named : d.EntryNamed) (hf : f ∈ x.files d (.directory dir)) :
    dir.bytes ≠ [] ∧ (∃ ns, (∀ n ∈ ns, Path.IsEntryName n) ∧ f = .file (dir.below ns)) ∧
      x.files d f = [f] := by
  obtain ⟨file, included, ns, -, hpath, found⟩ := x.mem_files_directory_iff.1 hf
  refine ⟨x.bytes_ne_nil_of_mem_files hf, ⟨ns, found.isEntryName named, ?_⟩, x.files_of_file file included⟩
  obtain ⟨path, isDirectory⟩ := f
  rw [Entry.file, ← hpath, ← file]

/-- Of a directory and its files no two have the same path in different spellings. -/
theorem eq_of_same (named : d.EntryNamed) (he : e ∈ .directory dir :: x.files d (.directory dir))
    (hf : f ∈ .directory dir :: x.files d (.directory dir)) (same : e.path.Same f.path) :
    e.path = f.path := by
  have way {g : Entry} (hg : g ∈ .directory dir :: x.files d (.directory dir)) :
      ∃ ns, (∀ n ∈ ns, Path.IsEntryName n) ∧ g.path = dir.below ns := by
    rcases List.mem_cons.1 hg with rfl | hg
    · exact ⟨[], nofun, rfl⟩
    · obtain ⟨-, ⟨ns, hns, rfl⟩, -⟩ := of_mem_files_directory named hg
      exact ⟨ns, hns, rfl⟩
  by_cases hdir : dir.bytes = []
  · -- then there are no files, and both are the directory
    have hnil : x.files d (.directory dir) = [] :=
      x.files_directory_of_lost (Disk.leadsSomewhere_of_nil hdir)
    rw [hnil, List.mem_singleton] at he hf
    rw [he, hf]
  · obtain ⟨ns, hns, hpath⟩ := way he
    obtain ⟨ms, hms, hpath'⟩ := way hf
    rw [hpath, hpath'] at same ⊢
    rw [(Path.below_same_iff hdir hns hms).1 same]

end Expander

/-! ## Who owns what is below -/

/-- A path lies strictly below another. -/
def Path.LiesBelow (p q : Path) : Prop := p.startsWith q = true ∧ ¬ p.Same q

instance (p q : Path) : Decidable (p.LiesBelow q) := inferInstanceAs (Decidable (_ ∧ _))

/-- No module of an open project has its content root strictly below a path. -/
def Registry.NoRootBelow (r : Registry) (p : Path) : Prop :=
  ∀ q ∈ r.openProjects, ∀ s ∈ r.get? q, ∀ m ∈ s.modules, ¬ m.contentRoot.LiesBelow p

instance (r : Registry) (p : Path) : Decidable (r.NoRootBelow p) :=
  inferInstanceAs (Decidable (∀ q ∈ r.openProjects, ∀ s ∈ r.get? q, _))

namespace Registry

variable {r : Registry} {q : ProjectId}

theorem exists_of_not_isDisposed (h : r.isDisposed q = false) :
    ∃ s, r.get? q = some s ∧ q ∈ r.openProjects := by
  unfold isDisposed at h
  cases hs : r.get? q with
  | none => rw [hs] at h; cases h
  | some s =>
    rw [hs] at h
    obtain ⟨⟨q', s'⟩, hfind, rfl⟩ := Option.map_eq_some_iff.1 hs
    obtain rfl : q' = q := by simpa using List.find?_some hfind
    have hopen : (!s'.disposed) = true := by simpa using h
    exact ⟨s', rfl, List.mem_map.2
      ⟨_, List.mem_filter.2 ⟨List.mem_of_find?_eq_some hfind, hopen⟩, rfl⟩⟩

/-- What lies below belongs to the module of a project that the path belongs to. -/
theorem NoRootBelow.findModule_below (out : r.NoRootBelow p) (hp : p.bytes ≠ [])
    (disposed : r.isDisposed q = false) : r.findModule q (p.below ns) = r.findModule q p := by
  obtain ⟨s, hs, hq⟩ := exists_of_not_isDisposed disposed
  have hcontains : ∀ m ∈ s.modules, m.contains (p.below ns) = m.contains p := fun m hm =>
    Path.startsWith_below_eq hp fun h => not_not.1 fun hne => out q hq s hs m hm ⟨h, hne⟩
  unfold findModule
  rw [hs]
  exact congrArg deepest? (List.filter_congr hcontains)

theorem NoRootBelow.owner?_below (out : r.NoRootBelow e.path) (he : e.path.bytes ≠ [])
    (hf : f.path = e.path.below ns) (ps : List ProjectId) :
    r.answers.owner? f ps = r.answers.owner? e ps := by
  unfold Answers.owner?
  induction ps with
  | nil => rfl
  | cons q ps ih =>
    cases disposed : r.answers.isDisposed q with
    | true => simpa [disposed] using ih
    | false =>
      have hfind : r.answers.findModule q f = r.answers.findModule q e := by
        show r.findModule q f.path = r.findModule q e.path
        rw [hf, out.findModule_below he disposed]
      simp only [disposed, Bool.not_false, List.filter_cons_of_pos, List.findSome?_cons, hfind, ih]

end Registry

/-! ## What a change comes to where spellings agree -/

namespace Answers

variable {a : Answers} {projects : List ProjectId} {classify : Classifier} {es asked fs : List Entry}
  {k : ChangeKind} {o? : Option SourceModule} {ms : List Mutation}

/-- Of entries with the same path, all or none are metadata. -/
def SpellingsAgree (a : Answers) (es : List Entry) : Prop :=
  ∀ e ∈ es, ∀ f ∈ es, e.path.Same f.path → a.isMetadata e = a.isMetadata f

/-- The changes of a kind to files of one owner, if it has one, by the answers about the files themselves. -/
def changesOf (a : Answers) (o? : Option SourceModule) (k : ChangeKind) (fs : List Entry) : List Change :=
  match o? with
  | none => []
  | some o => if a.isDisposed o.project then [] else fs.filterMap (a.change? [] o k)

theorem changesOf_cons (o? : Option SourceModule) (f : Entry) (fs : List Entry) :
    a.changesOf o? k (f :: fs) = a.changesOf o? k [f] ++ a.changesOf o? k fs := by
  unfold changesOf
  cases o? with
  | none => rfl
  | some o =>
    cases hd : a.isDisposed o.project with
    | true => simp [hd]
    | false =>
      simp only [hd, Bool.false_eq_true, if_false]
      rw [← List.filterMap_append, List.singleton_append]

/-- Nothing comes of files that are metadata. -/
theorem changesOf_of_metadata (hfs : ∀ f ∈ fs, a.isMetadata f = true) : a.changesOf o? k fs = [] := by
  unfold changesOf
  cases o? with
  | none => rfl
  | some o =>
    dsimp only
    split
    · rfl
    · refine List.filterMap_eq_nil_iff.2 fun f hf => ?_
      have hcounts : a.countsAsMetadata [] f = true := hfs f hf
      rw [change?, hcounts, Bool.or_true, if_pos rfl]

theorem SpellingsAgree.countsAsMetadata_eq (agree : a.SpellingsAgree es) (hasked : asked ⊆ es)
    (hf : f ∈ es) : a.countsAsMetadata asked f = a.isMetadata f := by
  obtain ⟨hmem, hsame⟩ := firstAsked_same asked f
  refine agree _ ?_ f hf hsame
  rcases hmem with hself | hmem
  · rwa [hself]
  · exact hasked hmem

theorem SpellingsAgree.change?_eq (agree : a.SpellingsAgree es) (hasked : asked ⊆ es) (hf : f ∈ es)
    (o : SourceModule) : a.change? asked o k f = a.change? [] o k f := by
  unfold change?
  rw [agree.countsAsMetadata_eq hasked hf, agree.countsAsMetadata_eq (List.nil_subset _) hf]

/-- An entry comes to the changes to its files, if it is no metadata or stands for itself at most. -/
theorem SpellingsAgree.ofEntry_snd (agree : a.SpellingsAgree es) (hasked : asked ⊆ es) (he : e ∈ es)
    (hfiles : x.files d e ⊆ es) (hself : a.isMetadata e = true → x.files d e ⊆ [e]) :
    (a.ofEntry d x projects asked k e).2 = a.changesOf (a.owner? e projects) k (x.files d e) := by
  unfold ofEntry target?
  rw [agree.countsAsMetadata_eq hasked he]
  cases hmeta : a.isMetadata e with
  | true =>
    rw [changesOf_of_metadata fun f hf => by rw [List.mem_singleton.1 (hself hmeta hf), hmeta]]
    rfl
  | false =>
    rw [if_neg Bool.false_ne_true]
    cases a.owner? e projects with
    | none => rfl
    | some o =>
      dsimp only [changesOf, found]
      split
      · rfl
      · refine List.filterMap_congr fun f hf => agree.change?_eq ?_ (hfiles hf) o
        have hnow : e :: (x.files d e).filter (fun f => !f.isDirectory) ⊆ es :=
          List.cons_subset.2 ⟨he, fun g hg => hfiles (List.mem_filter.1 hg).1⟩
        exact List.append_subset.2 ⟨hasked, hnow⟩

/-- Changes to files of one owner, one reported after the other, are the changes to these files. -/
theorem SpellingsAgree.changes_files (agree : a.SpellingsAgree es)
    (reported : List.Forall₂ (fun m f => classify m = .counts k ∧ m.primary k = .file f.path) ms fs)
    (hfs : ∀ f ∈ fs, f ∈ es ∧ .file f.path = f ∧ x.files d f = [f] ∧ a.owner? f projects = o?)
    (hasked : asked ⊆ es) :
    a.changes d x projects classify asked ms = a.changesOf o? k fs := by
  induction reported generalizing asked with
  | nil => exact (changesOf_of_metadata (by simp)).symm
  | @cons m f ms fs hm _ ih =>
    obtain ⟨⟨hf, hfile, hself, hown⟩, hrest⟩ := List.forall_mem_cons.1 hfs
    obtain ⟨hcounts, hprimary⟩ := hm
    obtain rfl : m.primary k = f := hprimary.trans hfile
    have hsub : x.files d (m.primary k) ⊆ es := by
      rw [hself]
      exact List.cons_subset.2 ⟨hf, List.nil_subset _⟩
    have hnow : (a.ofEntry d x projects asked k (m.primary k)).1 ⊆ es := by
      intro g hg
      rcases mem_ofEntry_fst hg with rfl | hg
      · exact hf
      · exact hsub hg
    rw [changes_of_counts hcounts, ih hrest (List.append_subset.2 ⟨hasked, hnow⟩), changesOf_cons,
      agree.ofEntry_snd hasked hf hsub (fun _ => by rw [hself]; exact List.Subset.refl _), hown, hself]

end Answers

/-! ## Gathering a directory -/

/-- Where a registry does not change, one change to a directory that is no metadata, below which no
module of an open project has its root, is gathered as the same batch as one change of that kind to
each of the files that the directory is expanded to, in their order. -/
theorem gather_directory (r : Registry) (d : Disk) (named : d.EntryNamed) (x : Expander)
    (projects : List ProjectId) (classify : Classifier) (k : ChangeKind) (dir : Path)
    (relevant : r.isMetadata dir = false) (out : r.NoRootBelow dir) (m : Mutation)
    (reported : classify m = .counts k ∧ m.primary k = .directory dir) (files : List Entry)
    (yields : (x.expand d (.directory dir)).Yields (pure true : StateM Unit Bool) () files)
    (ms : List Mutation)
    (each : List.Forall₂ (fun n f => classify n = .counts k ∧ n.primary k = .file f.path) ms files) :
    ∃ b, (gather Registry.host d x projects classify [m]).run r = (some b, r) ∧
      (gather Registry.host d x projects classify ms).run r = (some b, r) := by
  obtain rfl : files = x.files d (.directory dir) := x.eq_files_of_yields yields
  obtain ⟨hcounts, hprimary⟩ := reported
  let es := .directory dir :: x.files d (.directory dir)
  have agree : r.answers.SpellingsAgree es := fun e he f hf same =>
    congrArg r.isMetadata (Expander.eq_of_same named he hf same)
  -- what the directory comes to
  have hdirectory : r.answers.changes d x projects classify [] [m] =
      r.answers.changesOf (r.answers.owner? (.directory dir) projects) k (x.files d (.directory dir)) := by
    have hmeta : r.answers.isMetadata (.directory dir) = false := relevant
    rw [Answers.changes_of_counts hcounts, hprimary, Answers.changes, List.append_nil]
    exact agree.ofEntry_snd (List.nil_subset _) List.mem_cons_self (List.subset_cons_self _ _)
      fun h => by rw [hmeta] at h; cases h
  -- what the files come to
  have hfiles : r.answers.changes d x projects classify [] ms =
      r.answers.changesOf (r.answers.owner? (.directory dir) projects) k (x.files d (.directory dir)) := by
    refine agree.changes_files each (fun f hf => ?_) (List.nil_subset _)
    obtain ⟨hdir, ⟨ns, -, rfl⟩, hself⟩ := Expander.of_mem_files_directory named hf
    exact ⟨List.mem_cons_of_mem _ hf, rfl, hself, out.owner?_below hdir rfl projects⟩
  refine ⟨_, gather_registry r d x projects classify [m] ?_, ?_⟩
  · simp [hcounts]
  · rw [hdirectory, ← hfiles]
    have hall := ((List.forall₂_and_left _ _).1 each).1
    exact gather_registry r d x projects classify ms fun n hn => by simp [hall n hn]

/-- In the sample tree, the directory `/w` comes to the same as its two files, one of which is metadata: a change
to the other. -/
theorem gather_directory_sample :
    ∃ b, b.groups.map (fun g => g.2.map (·.path)) = [[⟨[47, 119, 47, 97]⟩]] ∧
      (gather Registry.host .sample (.ofInclusion .all) [⟨"p"⟩] Phase.settled.classifier
        [.created (.directory ⟨[47, 119]⟩)]).run .sample = (some b, .sample) ∧
      (gather Registry.host .sample (.ofInclusion .all) [⟨"p"⟩] Phase.settled.classifier
        [.created (.file ⟨[47, 119, 47, 97]⟩),
          .created (.file ⟨[47, 119, 47, 98, 46, 105, 109, 108]⟩)]).run .sample = (some b, .sample) := by
  have yields : ((Expander.ofInclusion .all).expand .sample (.directory ⟨[47, 119]⟩)).Yields
      (pure true : StateM Unit Bool) ()
      [.file ⟨[47, 119, 47, 97]⟩, .file ⟨[47, 119, 47, 98, 46, 105, 109, 108]⟩] :=
    .more (by decide) (.more (by decide) (.done (by decide)))
  obtain ⟨b, hdirectory, hfiles⟩ := gather_directory .sample .sample (by decide) (.ofInclusion .all) [⟨"p"⟩]
    Phase.settled.classifier .created ⟨[47, 119]⟩ (by decide) (by decide) (.created (.directory ⟨[47, 119]⟩))
    ⟨rfl, rfl⟩ _ yields [.created (.file ⟨[47, 119, 47, 97]⟩),
      .created (.file ⟨[47, 119, 47, 98, 46, 105, 109, 108]⟩)] (.cons ⟨rfl, rfl⟩ (.cons ⟨rfl, rfl⟩ .nil))
  refine ⟨b, ?_, hdirectory, hfiles⟩
  have hpaths : ((gather Registry.host .sample (.ofInclusion .all) [⟨"p"⟩] Phase.settled.classifier
      [.created (.directory ⟨[47, 119]⟩)]).run .sample).1.map (fun b => b.groups.map fun g => g.2.map (·.path)) =
        some [[⟨[47, 119, 47, 97]⟩]] := by decide +kernel
  rw [hdirectory] at hpaths
  exact Option.some.inj hpaths

end ChangeRelay
