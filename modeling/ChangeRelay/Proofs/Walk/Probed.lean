/-
Entries found and entries probed. The files that an expansion gives are told apart from directories by
what the walk sees, while an entry that is probed is looked at through all links. The two agree but for
one case: a link to a directory that is not followed is given as a file, though to probe its path is
to find a directory (`Expander.expand_probe`). This is so at the start of a walk, where the
directory that the link leads to is walked as well, and below it.

What stands in a directory that a walk has entered decides about it: the path of the walk leads to that
directory (`Enters.resolve_eq`), and the path of an entry in it to what stands there.
-/
import ChangeRelay.Proofs.Disk.Entry
import ChangeRelay.Proofs.Walk.Questions
import ChangeRelay.Proofs.Walk.Yields

namespace ChangeRelay

variable {σ : Type}

/-! ## Where the paths of a walk lead -/

namespace Disk

/-- Whether all names in a file tree are names under which entries can be made. -/
def EntryNamed (d : Disk) : Prop :=
  (∀ e ∈ d.nodes, ∀ n ∈ e.1, Path.IsEntryName n) ∧ ∀ n ∈ d.workingDirectory, Path.IsEntryName n

instance (d : Disk) : Decidable d.EntryNamed := inferInstanceAs (Decidable (_ ∧ _))

variable {d : Disk} {follow : Bool} {p : Path} {ns : List Name} {n : Name} {here : Location}
  {within : List Location} {target : Path}

theorem EntryNamed.isEntryName (named : d.EntryNamed) (stands : (d.lookup (here ++ [n])).isSome) :
    Path.IsEntryName n :=
  name_of_stands named.1 named.2 stands

theorem Finds.isEntryName (named : d.EntryNamed) (h : d.Finds follow p ns) :
    ∀ n ∈ ns, Path.IsEntryName n := by
  intro n hn
  obtain ⟨dir, stands⟩ := h.stands n hn
  exact named.isEntryName stands

/-- The path by which a walk has entered a directory leads to it, if it leads to any. -/
theorem Enters.resolve_eq (named : d.EntryNamed) (h : d.Enters follow p ns here within)
    (readable : d.isDirectory (p.below ns) = true) :
    d.resolve .follow (p.below ns) = .ok (here, some .directory) := by
  induction h with
  | start leads => exact leads
  | directory _ above stands ih =>
    rw [Path.below_concat] at readable ⊢
    have hn := named.isEntryName (Option.isSome_of_eq_some stands)
    exact resolve_child_of_directory (ih above) hn stands readable
  | link _ _ _ _ leads _ _ => exact leads

theorem isLink_child (leads : d.resolve .follow p = .ok (here, some .directory))
    (hn : Path.IsEntryName n) (stands : d.lookup (here ++ [n]) = some (.link target))
    (directory : d.isDirectory (p.child n) = true) : d.isLink (p.child n) = true := by
  rcases resolve_child .keep leads hn stands (.inl rfl) with h | ⟨f, h⟩
  · rw [isLink, h]
  · -- where the path leads nowhere though links are kept, it leads nowhere at all
    rcases resolve_keepsOr (d := d) (p.child n) with hkept | ⟨l, target, hkept⟩
    · rw [isDirectory, ← hkept, h] at directory
      cases directory
    · rw [h] at hkept
      cases hkept

/-- What a walk finds is a directory by its path only if it is a link that is not followed. -/
theorem Finds.of_isDirectory (named : d.EntryNamed) (h : d.Finds follow p ns)
    (directory : d.isDirectory (p.below ns) = true) :
    follow = false ∧ d.isLink (p.below ns) = true := by
  cases h with
  | start _ file =>
    rw [Path.below_nil, file] at directory
    cases directory
  | startLink _ link kept => exact ⟨kept, link⟩
  | file entered readable stands =>
    have hn := named.isEntryName (Option.isSome_of_eq_some stands)
    rw [Path.below_concat,
      isDirectory_child_of_file (entered.resolve_eq named readable) hn stands] at directory
    cases directory
  | link entered readable kept stands =>
    have hn := named.isEntryName (Option.isSome_of_eq_some stands)
    rw [Path.below_concat] at directory ⊢
    exact ⟨kept, isLink_child (entered.resolve_eq named readable) hn stands directory⟩
  | linkToFile _ _ _ _ _ file =>
    rw [file] at directory
    cases directory

end Disk

/-! ## What is yielded, whatever the answers -/

namespace Expansion

variable {goOn : StateM σ Bool} {x : Expansion} {s : σ} {i : Inclusion} {ahead : List Visit}
  {e : Entry} {es : List Entry}

/-- The file that a search gives is the first that is included of the visits ahead. -/
theorem search_eq_some (h : ((search i goOn ahead).run s).1.1 = some e) :
    ∃ rest, ((search i goOn ahead).run s).1.2 = ⟨i, rest, false⟩ ∧
      ahead.filterMap (Visit.included? i) = e :: rest.filterMap (Visit.included? i) := by
  obtain ⟨k, -, hfiles, hrun⟩ := search_found h
  refine ⟨ahead.drop k, by rw [hrun], ?_⟩
  have hsplit : ahead.filterMap (Visit.included? i) =
      (ahead.take k).filterMap (Visit.included? i) ++ (ahead.drop k).filterMap (Visit.included? i) := by
    rw [← List.filterMap_append, List.take_append_drop]
  rw [hsplit, hfiles, List.singleton_append]

/-- However often it is told to go on, an expansion yields the first of the files ahead. -/
theorem Yields.initial (h : x.Yields goOn s es) :
    es <+: x.ahead.filterMap (Visit.included? x.inclusion) := by
  induction h with
  | done => exact List.nil_prefix
  | @more x s e es next rest ih =>
    obtain ⟨i, ahead, interrupted⟩ := x
    cases interrupted with
    | true => cases next
    | false =>
      obtain ⟨left, hleft, hfiles⟩ := search_eq_some (s := s) next
      have hnext : (((⟨i, ahead, false⟩ : Expansion).next goOn).run s).1.2 = ⟨i, left, false⟩ := hleft
      rw [hnext] at ih
      rw [hfiles]
      exact List.cons_prefix_cons.2 ⟨rfl, ih⟩

end Expansion

namespace Expander

/-- The files that an expansion of a probed entry yields. Each is given as a file, and is what would be
probed at its path, but for a link to a directory where links are not followed. -/
theorem expand_probe (x : Expander) (d : Disk) (named : d.EntryNamed) (p : Path)
    (goOn : StateM σ Bool) (s : σ) (es : List Entry)
    (yields : (x.expand d (.probe d p)).Yields goOn s es) :
    ∀ f ∈ es, f.isDirectory = false ∧
      (f ≠ .probe d f.path ↔
        x.rules.followLinks = false ∧ d.isLink f.path = true ∧ d.isDirectory f.path = true) := by
  intro f hf
  have hfiles : f ∈ x.files d (.probe d p) := yields.initial.subset hf
  have file : f.isDirectory = false := x.isDirectory_of_mem_files hfiles
  have hdiffers : f ≠ .probe d f.path ↔ d.isDirectory f.path = true := by
    obtain ⟨path, isDirectory⟩ := f
    obtain rfl : isDirectory = false := file
    unfold Entry.probe
    cases d.isDirectory path <;> simp
  refine ⟨file, hdiffers.trans ⟨fun directory => ?_, fun h => h.2.2⟩⟩
  cases hp : d.isDirectory p with
  | true =>
    have hprobe : Entry.probe d p = .directory p := by rw [Entry.probe, hp]; rfl
    rw [hprobe] at hfiles
    obtain ⟨-, -, ns, -, hpath, found⟩ := x.mem_files_directory_iff.1 hfiles
    rw [hpath] at directory ⊢
    obtain ⟨kept, link⟩ := found.of_isDirectory named directory
    exact ⟨kept, link, directory⟩
  | false =>
    -- a file stands for itself, and what was probed there is no directory
    have hvisits : x.visits d (.probe d p) = [.entry (.probe d p)] := by
      rw [visits, Entry.probe, hp]
      rfl
    obtain ⟨v, hv, hfv⟩ := List.mem_filterMap.1 hfiles
    rw [hvisits, List.mem_singleton] at hv
    subst hv
    obtain ⟨he, -⟩ := Visit.included?_eq_some_iff.1 hfv
    cases he
    rw [show (Entry.probe d p).path = p from rfl, hp] at directory
    cases directory

end Expander

/-- A file tree with a link `/l` to the directory `/t`, in which are a file and a link to the directory
`/u`. -/
def Disk.linked : Disk :=
  ⟨[], [([[108]], .link ⟨[47, 116]⟩), ([[116], [109]], .link ⟨[47, 117]⟩), ([[116], [97]], .file []),
    ([[116]], .directory), ([[117]], .directory)]⟩

namespace Expander

/-- With links followed, `/l` is expanded to `/l/a`, and that is a file. -/
theorem expand_probe_followed :
    Disk.linked.EntryNamed ∧
      ((⟨.all, ⟨true, none⟩⟩ : Expander).expand .linked (.probe .linked ⟨[47, 108]⟩)).Yields
        (pure true : StateM Unit Bool) () [.file ⟨[47, 108, 47, 97]⟩] ∧
      Entry.file ⟨[47, 108, 47, 97]⟩ = .probe .linked ⟨[47, 108, 47, 97]⟩ := by
  have named : Disk.linked.EntryNamed := by decide
  have yields : ((⟨.all, ⟨true, none⟩⟩ : Expander).expand .linked (.probe .linked ⟨[47, 108]⟩)).Yields
      (pure true : StateM Unit Bool) () [.file ⟨[47, 108, 47, 97]⟩] :=
    .more (by decide) (.done (by decide))
  obtain ⟨-, differs⟩ := expand_probe ⟨.all, ⟨true, none⟩⟩ .linked named ⟨[47, 108]⟩ (pure true) () _ yields
    _ (List.mem_singleton_self _)
  exact ⟨named, yields, not_not.1 fun h => Bool.noConfusion (differs.1 h).1⟩

/-- With links not followed, the directories `/l` and `/l/m` are found as if they were files: the link
where the walk starts, and the one below it. -/
theorem directory_found_as_file :
    ((⟨.all, ⟨false, none⟩⟩ : Expander).expand .linked (.probe .linked ⟨[47, 108]⟩)).Yields
        (pure true : StateM Unit Bool) ()
        [.file ⟨[47, 108]⟩, .file ⟨[47, 108, 47, 109]⟩, .file ⟨[47, 108, 47, 97]⟩] ∧
      Entry.probe .linked ⟨[47, 108]⟩ = .directory ⟨[47, 108]⟩ ∧
      Entry.probe .linked ⟨[47, 108, 47, 109]⟩ = .directory ⟨[47, 108, 47, 109]⟩ :=
  ⟨.more (by decide) (.more (by decide) (.more (by decide) (.done (by decide)))), by decide, by decide⟩

end Expander

end ChangeRelay
