/-
What an expansion yields. Its files are taken one after the other until there is no next. As long as
the answer is to go on, it ends on every file tree, whatever links lead back into it, and yields the
files that are found below a directory, not too deep, and that the choice of files includes.
-/
import ChangeRelay.Proofs.Computation
import ChangeRelay.Proofs.Walk.Files
import ChangeRelay.Proofs.Walk.Reach

namespace ChangeRelay

variable {σ : Type} {goOn : StateM σ Bool} {x y : Expansion} {s t : σ} {es fs : List Entry}

namespace Expansion

/-- To take the next file of an expansion again and again gives the files in order, and then no
next. -/
inductive Yields (goOn : StateM σ Bool) : Expansion → σ → List Entry → Prop
  | done {x : Expansion} {s : σ} (none_next : ((x.next goOn).run s).1.1 = none) :
    Yields goOn x s []
  | more {x : Expansion} {s : σ} {e : Entry} {es : List Entry}
    (next : ((x.next goOn).run s).1.1 = some e)
    (rest : Yields goOn ((x.next goOn).run s).1.2 ((x.next goOn).run s).2 es) :
    Yields goOn x s (e :: es)

namespace Yields

theorem unique (h : x.Yields goOn s es) (h' : x.Yields goOn s fs) : es = fs := by
  induction h generalizing fs with
  | done none_next =>
    cases h' with
    | done => rfl
    | more next => rw [none_next] at next; cases next
  | more next _ ih =>
    cases h' with
    | done none_next => rw [none_next] at next; cases next
    | more next' rest' =>
      rw [next] at next'
      cases next'
      rw [ih rest']

theorem of_next_eq (h : (x.next goOn).run s = (y.next goOn).run t) (hy : y.Yields goOn t es) :
    x.Yields goOn s es := by
  cases hy with
  | done none_next => exact .done (by rw [h, none_next])
  | more next rest =>
    rw [← h] at next rest
    exact .more next rest

end Yields

theorem next_cons_goOn (always : Gives (· = true) goOn) (i : Inclusion) (v : Visit)
    (ahead : List Visit) (s : σ) :
    ((⟨i, v :: ahead, false⟩ : Expansion).next goOn).run s = match v.included? i with
      | some e => ((some e, ⟨i, ahead, false⟩), (goOn.run s).2)
      | none => ((⟨i, ahead, false⟩ : Expansion).next goOn).run (goOn.run s).2 := by
  have hyes : (goOn.run s).1 = true := always s
  simp only [next, Bool.false_eq_true, if_false, search, run_bind, hyes, if_true]
  cases v.included? i <;> rfl

/-- As long as the answer is to go on, an expansion yields what is included of the visits ahead. -/
theorem yields_goOn (always : Gives (· = true) goOn) (i : Inclusion) (ahead : List Visit) (s : σ) :
    (⟨i, ahead, false⟩ : Expansion).Yields goOn s (ahead.filterMap (Visit.included? i)) := by
  induction ahead generalizing s with
  | nil => exact .done rfl
  | cons v ahead ih =>
    have hnext := next_cons_goOn always i v ahead s
    cases hv : v.included? i with
    | none =>
      -- what is not included is passed in silence, so the next file is that of the rest
      rw [hv] at hnext
      rw [List.filterMap_cons_none hv]
      exact .of_next_eq hnext (ih _)
    | some e =>
      rw [hv] at hnext
      rw [List.filterMap_cons_some hv]
      refine .more (by rw [hnext]) ?_
      rw [hnext]
      exact ih _

end Expansion

/-! ## The files below a directory -/

theorem Visit.included?_eq_some_iff {i : Inclusion} {v : Visit} {e : Entry} :
    v.included? i = some e ↔ v = .entry e ∧ i.includes e = true := by
  cases v with
  | entry f =>
    rw [Visit.included?, Visit.entry.injEq]
    split
    · rename_i h
      rw [Option.some.injEq]
      exact ⟨fun he => ⟨he, he ▸ h⟩, And.left⟩
    · rename_i h
      exact iff_of_false nofun fun ⟨he, hi⟩ => h (he ▸ hi)
  | unreadable q => exact iff_of_false nofun (fun h => nomatch h.1)

theorem Inclusion.isDirectory_of_includes {i : Inclusion} {e : Entry} (h : i.includes e = true) :
    e.isDirectory = false := by
  unfold Inclusion.includes at h
  split at h
  · cases h
  · rename_i hdir
    exact Bool.eq_false_iff.2 hdir

namespace Expander

variable {d : Disk} {p : Path}

theorem isDirectory_of_mem_files (x : Expander) {e f : Entry} (hf : f ∈ x.files d e) :
    f.isDirectory = false := by
  obtain ⟨v, -, hv⟩ := List.mem_filterMap.1 hf
  exact Inclusion.isDirectory_of_includes (Visit.included?_eq_some_iff.1 hv).2

theorem mem_files_directory_iff (x : Expander) {f : Entry} :
    f ∈ x.files d (.directory p) ↔
      f.isDirectory = false ∧ x.inclusion.includes f = true ∧ ∃ ns,
        (∀ depth ∈ x.rules.maxDepth, ns.length ≤ depth.toNat) ∧ f.path = p.below ns ∧
        d.Finds x.rules.followLinks p ns := by
  have hmem : f ∈ x.files d (.directory p) ↔
      .entry f ∈ d.walk x.rules p ∧ x.inclusion.includes f = true := by
    show f ∈ (d.walk x.rules p).filterMap _ ↔ _
    simp only [List.mem_filterMap, Visit.included?_eq_some_iff]
    constructor
    · rintro ⟨v, hv, rfl, hi⟩
      exact ⟨hv, hi⟩
    · rintro ⟨hv, hi⟩
      exact ⟨_, hv, rfl, hi⟩
  rw [hmem]
  constructor
  · rintro ⟨hv, hi⟩
    have file := Inclusion.isDirectory_of_includes hi
    exact ⟨file, hi, (Disk.entry_mem_walk_iff file).1 hv⟩
  · rintro ⟨file, hi, found⟩
    exact ⟨(Disk.entry_mem_walk_iff file).2 found, hi⟩

theorem files_directory_nodup (x : Expander) (named : d.WellNamed) :
    ((x.files d (.directory p)).map (·.path)).Nodup := by
  rw [List.Nodup, List.pairwise_map]
  refine (Disk.walk_apart named).filterMap _ ?_
  intro v w apart e he f hf
  obtain ⟨hv, hie⟩ := Visit.included?_eq_some_iff.1 he
  obtain ⟨hw, hif⟩ := Visit.included?_eq_some_iff.1 hf
  exact apart e f hv hw (Inclusion.isDirectory_of_includes hie)
    (Inclusion.isDirectory_of_includes hif)

theorem files_directory_of_lost (x : Expander) (lost : d.leadsSomewhere p = false) :
    x.files d (.directory p) = [] := by
  refine List.filterMap_eq_nil_iff.2 fun v hv => ?_
  cases v with
  | entry e => exact absurd hv (Disk.not_mem_walk_of_lost lost)
  | unreadable q => rfl

theorem bytes_ne_nil_of_mem_files {f : Entry} (x : Expander) (hf : f ∈ x.files d (.directory p)) :
    p.bytes ≠ [] := by
  intro hp
  rw [x.files_directory_of_lost (Disk.leadsSomewhere_of_nil hp)] at hf
  cases hf

/-- What an expansion yields that is told to go on are the files of the entry. -/
theorem eq_files_of_yields (x : Expander) {e : Entry} {es : List Entry}
    (yields : (x.expand d e).Yields (pure true : StateM Unit Bool) () es) : es = x.files d e :=
  yields.unique (Expansion.yields_goOn (.pure rfl) x.inclusion (x.visits d e) ())

theorem files_of_file (x : Expander) {e : Entry} (he : e.isDirectory = false)
    (hi : x.inclusion.includes e = true) : x.files d e = [e] := by
  unfold files visits
  rw [he, if_neg Bool.false_ne_true,
    List.filterMap_cons_some (Visit.included?_eq_some_iff.2 ⟨rfl, hi⟩), List.filterMap_nil]

/-- While the answer is to go on, the expansion of a directory ends, and it yields the files that
are found below the directory, not too deep, and that the choice includes. Under names of a file
system it yields each once, and if the path leads nowhere, none. -/
theorem expand_exact (x : Expander) (d : Disk) (p : Path) (goOn : StateM σ Bool)
    (always : Gives (· = true) goOn) (s : σ) :
    ∃ files, (∀ es, (x.expand d (.directory p)).Yields goOn s es ↔ es = files) ∧
      (∀ f, f ∈ files ↔
        f.isDirectory = false ∧ x.inclusion.includes f = true ∧ ∃ ns,
          (∀ depth ∈ x.rules.maxDepth, ns.length ≤ depth.toNat) ∧ f.path = p.below ns ∧
          d.Finds x.rules.followLinks p ns) ∧
      (d.WellNamed → (files.map (·.path)).Nodup) ∧
      (d.leadsSomewhere p = false → files = []) := by
  have yields : (x.expand d (.directory p)).Yields goOn s (x.files d (.directory p)) :=
    Expansion.yields_goOn always _ _ s
  refine ⟨x.files d (.directory p), fun es => ?_, fun f => x.mem_files_directory_iff,
    x.files_directory_nodup, x.files_directory_of_lost⟩
  constructor
  · intro h
    exact h.unique yields
  · rintro rfl
    exact yields

end Expander

/-- A file tree with a file and two links in one directory, one back to the directory and one to
nothing. -/
def Disk.looped : Disk :=
  ⟨[[119]], [([[119], [98]], .link ⟨[47, 120]⟩), ([[119], [108]], .link ⟨[47, 119]⟩),
    ([[119], [102]], .file [])]⟩

/-- With links followed, a directory with a link back to it yields the file in it once. -/
theorem Expander.expand_exact_looped :
    Gives (· = true) (pure true : StateM Unit Bool) ∧ Disk.looped.WellNamed ∧
      (∀ es, ((⟨.all, ⟨true, none⟩⟩ : Expander).expand .looped (.directory ⟨[47, 119]⟩)).Yields
        (pure true : StateM Unit Bool) () es ↔ es = [.file ⟨[47, 119, 47, 102]⟩]) ∧
      Disk.looped.Finds true ⟨[47, 119]⟩ [[102]] := by
  have always : Gives (· = true) (pure true : StateM Unit Bool) := Gives.pure rfl
  have named : Disk.looped.WellNamed := by decide
  obtain ⟨files, yields, mem, nodup, -⟩ :=
    Expander.expand_exact ⟨.all, ⟨true, none⟩⟩ .looped ⟨[47, 119]⟩ (pure true) always ()
  have hfiles : [.file ⟨[47, 119, 47, 102]⟩] = files := by
    refine (yields _).1 (.more (by decide) (.done (by decide)))
  subst hfiles
  refine ⟨always, named, yields, ?_⟩
  obtain ⟨-, -, ns, -, path, found⟩ := (mem _).1 (List.mem_singleton_self _)
  have hname : ∀ n ∈ [[102]], Path.IsName n := by decide
  have hns : ns = [[102]] := Path.below_injective (found.isName named) hname path.symm
  exact hns ▸ found

end ChangeRelay
