/-
Files of an owner. Who owns the files of an entry is decided by the path of the entry, and a change to a
file is named by its own path; the two agree because an expansion stays within every root that the entry
is within (`Expander.startsWith_of_mem_files`). So of the files of an entry with an owner none is lost but
metadata and the content root itself, and each of the others is listed for its owner once
(`gather_keepsOwned`).
-/
import ChangeRelay.Proofs.Host.History
import ChangeRelay.Proofs.Path.Within
import ChangeRelay.Proofs.Relay.Gather
import ChangeRelay.Proofs.Walk.Yields
import Mathlib.Data.List.Forall2

namespace ChangeRelay

variable {d : Disk} {x : Expander} {root : Path} {e f : Entry} {m : SourceModule} {k : ChangeKind}

/-! ## Owners -/

/-- The files of an entry are within every root that the entry is within. -/
theorem Expander.startsWith_of_mem_files (hf : f ∈ x.files d e)
    (within : e.path.startsWith root = true) : f.path.startsWith root = true := by
  obtain ⟨path, isDirectory⟩ := e
  cases isDirectory with
  | true =>
    have hpath : path.bytes ≠ [] := x.bytes_ne_nil_of_mem_files hf
    obtain ⟨-, -, ns, -, hbelow, -⟩ := x.mem_files_directory_iff.1 hf
    rw [hbelow]
    exact Path.startsWith_below hpath within
  | false =>
    obtain ⟨v, hv, hvf⟩ := List.mem_filterMap.1 hf
    rw [show x.visits d ⟨path, false⟩ = [.entry ⟨path, false⟩] from rfl, List.mem_singleton] at hv
    obtain ⟨hvf, -⟩ := Visit.included?_eq_some_iff.1 hvf
    cases hv.symm.trans hvf
    exact within

namespace Registry

variable {r : Registry} {h : History} {projects : List ProjectId}

theorem owner?_host (r : Registry) (e : Entry) (projects : List ProjectId) :
    ((host.owner? e projects).run r).1 = r.answers.owner? e projects := by
  rw [(owner?_inStep (registry_inStep r) e projects).value_eq (t := ()) rfl, Answers.owner?_host]
  rfl

/-- An owner contains what it owns, and its project is open. -/
theorem Reflects.of_owner? (hr : r.Reflects h) (owned : r.answers.owner? e projects = some m) :
    r.isDisposed m.project = false ∧ m.contains e.path = true := by
  obtain ⟨p, hp, hfind⟩ := List.exists_of_findSome?_eq_some owned
  have hopen : (!r.isDisposed p) = true := (List.mem_filter.1 hp).2
  have hfind : r.findModule p e.path = some m := hfind
  obtain ⟨-, rfl⟩ := hr.findModule hfind
  refine ⟨by simpa using hopen, ?_⟩
  rw [Registry.findModule] at hfind
  split at hfind
  · cases hfind
  · exact (List.mem_filter.1 (mem_of_deepest? hfind)).2

end Registry

/-! ## What an owned entry comes to -/

/-- Where a choice is made for certain elements and for no others, the chosen stand for these. -/
theorem forall₂_filter_filterMap {α β : Type} {P : α → Bool} {f : α → Option β} : ∀ {as : List α},
    (∀ a ∈ as, (f a).isSome = P a) → List.Forall₂ (fun a b => f a = some b) (as.filter P) (as.filterMap f)
  | [], _ => .nil
  | a :: as, h => by
    obtain ⟨ha, has⟩ := List.forall_mem_cons.1 h
    have ih := forall₂_filter_filterMap has
    cases hf : f a with
    | none =>
      rw [hf] at ha
      rw [List.filterMap_cons_none hf, List.filter_cons_of_neg (by simp [← ha])]
      exact ih
    | some b =>
      rw [hf] at ha
      rw [List.filterMap_cons_some hf, List.filter_cons_of_pos ha.symm]
      exact .cons hf ih

namespace Answers

variable {a : Answers} {projects : List ProjectId} {asked : List Entry}

theorem ofEntry_of_owned (relevant : a.countsAsMetadata asked e = false)
    (owned : a.owner? e projects = some m) (isOpen : a.isDisposed m.project = false) :
    a.ofEntry d x projects asked k e =
      (e :: x.files d e, (x.files d e).filterMap (a.change? (asked ++ e :: x.files d e) m k)) := by
  have hfiles : (x.files d e).filter (fun f => !f.isDirectory) = x.files d e :=
    List.filter_eq_self.2 fun f hf => by rw [x.isDirectory_of_mem_files hf, Bool.not_false]
  unfold ofEntry target?
  rw [relevant, if_neg Bool.false_ne_true, owned]
  dsimp only [found]
  rw [isOpen, if_neg Bool.false_ne_true, hfiles]

/-- A file within a module has a change unless it counts as metadata or is the content root. -/
theorem change?_isSome (file : f.isDirectory = false) (within : f.path.startsWith m.contentRoot = true) :
    (a.change? asked m k f).isSome =
      (!a.countsAsMetadata asked f && !decide (f.path.Same m.contentRoot)) := by
  have hroot := Path.relativeTo?_eq_none_iff within
  unfold change? Change.ofEntry?
  rw [file, Bool.false_or]
  cases a.countsAsMetadata asked f with
  | true => rfl
  | false =>
    rw [if_neg Bool.false_ne_true, Option.isSome_map]
    cases hrel : f.path.relativeTo? m.contentRoot with
    | none => simp [hroot.1 hrel]
    | some relative =>
      have hne : ¬ f.path.Same m.contentRoot := fun hs => by rw [hroot.2 hs] at hrel; cases hrel
      simp [hne]

/-- Of the entry that is asked about first, the memo keeps the answer that it had before. -/
theorem get?_of_ofEntry {memo : Memo} {later : List Entry}
    (knows : memo.Knows a (asked ++ (a.ofEntry d x projects asked k e).1 ++ later)) :
    memo.get? e.path = some (a.countsAsMetadata asked e) := by
  obtain ⟨rest, hrest⟩ := ofEntry_fst_cons (a := a) (d := d) (x := x) e
  rw [hrest] at knows
  rw [knows.get?_of_mem (List.mem_append_right _ List.mem_cons_self), countsAsMetadata, firstAsked_append]
  rfl

/-- The changes to files within a module are to those that are no metadata, as the memo has it, and not
the content root, one to each. -/
theorem forall₂_change? {memo : Memo} {later fs : List Entry} (knows : memo.Knows a (asked ++ later))
    (hfs : ∀ f ∈ fs, f ∈ asked ∧ f.isDirectory = false ∧ f.path.startsWith m.contentRoot = true) :
    List.Forall₂ (fun f c => Change.ofEntry? m f k = some c)
      (fs.filter fun f => memo.get? f.path = some false ∧ ¬ f.path.Same m.contentRoot)
      (fs.filterMap (a.change? asked m k)) := by
  have hchosen : ∀ f ∈ fs, (a.change? asked m k f).isSome =
      decide (memo.get? f.path = some false ∧ ¬ f.path.Same m.contentRoot) := by
    intro f hf
    obtain ⟨hasked, file, within⟩ := hfs f hf
    rw [change?_isSome file within, knows.get?_of_mem hasked]
    cases a.countsAsMetadata asked f <;> simp
  exact (forall₂_filter_filterMap hchosen).imp fun _ _ hfc => (of_change? hfc).2.2

end Answers

/-! ## Gathering what is owned -/

/-- Where a registry does not change, a change to an entry that has an owner and is not metadata, as the
memo of the run has it, adds to the list of the owner one change for each file of the entry that is no
metadata either and not the content root; it adds nothing to the lists of others, and nothing of it goes
again. That a file has no change since it is not within the module is so for the content root only. -/
theorem gather_keepsOwned (rules : MetadataRules) (h : History) (d : Disk) (x : Expander)
    (projects : List ProjectId) (classify : Classifier) (before after : List Mutation) (e : Mutation)
    (total : ∀ n ∈ before ++ e :: after, classify n ≠ .failed) (k : ChangeKind)
    (counts : classify e = .counts k) (m : SourceModule) (files : List Entry)
    (yields : (x.expand d (e.primary k)).Yields (pure true : StateM Unit Bool) () files) :
    let r := (Registry.empty rules).performAll h
    let gathered ms := ((Gathering.addMutations Registry.host d x projects classify ms .empty).run r).1
    ((Registry.host.owner? (e.primary k) projects).run r).1 = some m →
    ∃ g₀ g₁ g, gathered before = some g₀ ∧ gathered (before ++ [e]) = some g₁ ∧
      gathered (before ++ e :: after) = some g ∧ (g.memo.get? (e.primary k).path).isSome ∧
      (g.memo.get? (e.primary k).path = some false → ∃ own,
        g₁.batch.changesTo m = g₀.batch.changesTo m ++ own ∧
        g₁.batch.changesTo m <+: g.batch.changesTo m ∧
        (∀ n, ¬ n.Same m → g₁.batch.changesTo n = g₀.batch.changesTo n) ∧
        (∀ f ∈ files, (g.memo.get? f.path).isSome ∧
          (Change.ofEntry? m f k = none ↔ f.path.Same m.contentRoot)) ∧
        List.Forall₂ (fun f c => Change.ofEntry? m f k = some c)
          (files.filter fun f => g.memo.get? f.path = some false ∧ ¬ f.path.Same m.contentRoot) own) := by
  intro r gathered owned
  have hr : r.Reflects h := by
    have := (Registry.empty_reflects rules).performAll h
    rwa [List.nil_append] at this
  obtain rfl : files = x.files d (e.primary k) := x.eq_files_of_yields yields
  rw [Registry.owner?_host] at owned
  obtain ⟨isOpen, within⟩ := hr.of_owner? owned
  -- what has been gathered before `e`, with it, and at the end
  obtain ⟨g₀, h₀, hold₀⟩ := Gathering.addMutations_registry d x projects classify r before
    fun n hn => total n (List.mem_append_left _ hn)
  obtain ⟨g₁, h₁, hold₁⟩ := Gathering.addMutations_registry d x projects classify r (before ++ [e])
    fun n hn => total n (by rw [List.append_cons]; exact List.mem_append_left _ hn)
  obtain ⟨g, hg, hold⟩ := Gathering.addMutations_registry d x projects classify r (before ++ e :: after) total
  obtain ⟨later, back, hchanges₁, hchanges, hasked⟩ :=
    Answers.exists_split r.answers d x projects counts before after
  generalize r.answers.askedAfter d x projects classify [] before = asked at *
  rw [hchanges₁] at hold₁
  rw [hchanges] at hold
  have hmemo := hasked ▸ hold.memo
  have hprimary : g.memo.get? (e.primary k).path = some (r.answers.countsAsMetadata asked (e.primary k)) :=
    Answers.get?_of_ofEntry hmemo
  refine ⟨g₀, g₁, g, congrArg Prod.fst h₀, congrArg Prod.fst h₁, congrArg Prod.fst hg, by rw [hprimary]; rfl,
    fun relevant => ?_⟩
  rw [hprimary, Option.some.injEq] at relevant
  -- the entry is not metadata, so its files have been asked about too, and the memo knows them all
  rw [Answers.ofEntry_of_owned relevant owned isOpen] at hmemo hold₁ hold
  dsimp only at hmemo hold₁ hold
  generalize hnow : asked ++ e.primary k :: x.files d (e.primary k) = now at hmemo hold₁ hold
  have hfiles {f : Entry} (hf : f ∈ x.files d (e.primary k)) :
      f ∈ now ∧ f.isDirectory = false ∧ f.path.startsWith m.contentRoot = true :=
    ⟨hnow ▸ List.mem_append_right _ (List.mem_cons_of_mem _ hf), x.isDirectory_of_mem_files hf,
      Expander.startsWith_of_mem_files hf within⟩
  rw [hold₀.batch, hold₁.batch, hold.batch]
  refine ⟨(x.files d (e.primary k)).filterMap (r.answers.change? now m k), ?_, Batch.changesTo_prefix _ _ _,
    fun n hn => ?_, fun f hf => ⟨?_, ?_⟩, Answers.forall₂_change? hmemo fun f => hfiles⟩
  · rw [Batch.changesTo_append Answers.module_of_mem_filterMap, if_pos (.refl m)]
  · rw [Batch.changesTo_append Answers.module_of_mem_filterMap, if_neg fun h => hn h.symm, List.append_nil]
  · rw [hmemo.get?_of_mem (hfiles hf).1]
    rfl
  · rw [← Path.relativeTo?_eq_none_iff (hfiles hf).2.2, Change.ofEntry?, Option.map_eq_none_iff]

/-- Of the two files in the directory `/w` of the sample tree one is metadata. The other is listed for the
module once more when after a change to it one to the directory is reported. -/
theorem gather_keepsOwned_sample :
    let r := (Registry.empty Registry.sample.metadata).performAll
      [.openProject ⟨"p"⟩, .addModule ⟨"p"⟩ ⟨"m"⟩ ⟨[47, 119]⟩]
    let gathered ms := ((Gathering.addMutations Registry.host .sample (.ofInclusion .all) [⟨"p"⟩]
      Phase.settled.classifier ms .empty).run r).1
    ∃ g₀ g₁ own, gathered [.modified (.file ⟨[47, 119, 47, 97]⟩)] = some g₀ ∧
      gathered [.modified (.file ⟨[47, 119, 47, 97]⟩), .created (.directory ⟨[47, 119]⟩)] = some g₁ ∧
      g₁.batch.changesTo ⟨⟨"m"⟩, ⟨"p"⟩, ⟨[47, 119]⟩⟩ = g₀.batch.changesTo ⟨⟨"m"⟩, ⟨"p"⟩, ⟨[47, 119]⟩⟩ ++ own ∧
      own.length = 1 := by
  intro r gathered
  have yields : ((Expander.ofInclusion .all).expand .sample (.directory ⟨[47, 119]⟩)).Yields
      (pure true : StateM Unit Bool) ()
      [.file ⟨[47, 119, 47, 97]⟩, .file ⟨[47, 119, 47, 98, 46, 105, 109, 108]⟩] :=
    .more (by decide) (.more (by decide) (.done (by decide)))
  obtain ⟨g₀, g₁, g, h₀, h₁, hg, -, adds⟩ := gather_keepsOwned Registry.sample.metadata
    [.openProject ⟨"p"⟩, .addModule ⟨"p"⟩ ⟨"m"⟩ ⟨[47, 119]⟩] .sample (.ofInclusion .all) [⟨"p"⟩]
    Phase.settled.classifier [.modified (.file ⟨[47, 119, 47, 97]⟩)] [] (.created (.directory ⟨[47, 119]⟩))
    (by decide) .created rfl ⟨⟨"m"⟩, ⟨"p"⟩, ⟨[47, 119]⟩⟩ _ yields (by decide)
  have hmemo : (gathered [.modified (.file ⟨[47, 119, 47, 97]⟩), .created (.directory ⟨[47, 119]⟩)]).map
      (fun g => [g.memo.get? ⟨[47, 119]⟩, g.memo.get? ⟨[47, 119, 47, 97]⟩,
        g.memo.get? ⟨[47, 119, 47, 98, 46, 105, 109, 108]⟩]) = some [some false, some false, some true] := by
    decide +kernel
  have hg : gathered [.modified (.file ⟨[47, 119, 47, 97]⟩), .created (.directory ⟨[47, 119]⟩)] = some g := hg
  rw [hg, Option.map_some, Option.some.injEq, List.cons.injEq, List.cons.injEq, List.cons.injEq] at hmemo
  obtain ⟨hdirectory, hfile, hmetadata, -⟩ := hmemo
  obtain ⟨own, happend, -, -, -, hown⟩ := adds hdirectory
  refine ⟨g₀, g₁, own, h₀, h₁, happend, hown.length_eq.symm.trans ?_⟩
  simp only [Entry.file, List.filter_cons, List.filter_nil, hfile, hmetadata]
  decide

end ChangeRelay
