/-
Renames as systems report them: as a whole, by one side after the other, or by two paths without a side. By the first
two it is known that the source has gone and the target has come. Of a path without a side the disk has to tell, and
it tells through links: a target that is a link which leads nowhere is taken to have gone as well. For any other target
the three ways to report a rename come to the same (`told_alike_iff`).
-/
import ChangeRelay.Change.Notice
import ChangeRelay.Proofs.Walk.Reach

namespace ChangeRelay

/-! ## What stands at a path -/

namespace Disk

variable {d : Disk} {p : Path}

/-- Whether something stands at a path, the last link not followed. -/
def stands (d : Disk) (p : Path) : Bool :=
  match d.resolve .keep p with
  | .ok _ => true
  | .error _ => false

/-- A link that leads nowhere stands at a path. -/
def Dangles (d : Disk) (p : Path) : Prop := d.isLink p = true ∧ d.leadsSomewhere p = false

instance (d : Disk) (p : Path) : Decidable (d.Dangles p) := inferInstanceAs (Decidable (_ ∧ _))

/-- A path leads to what stands at it, unless that is a link. -/
theorem leadsSomewhere_eq_or (d : Disk) (p : Path) : d.leadsSomewhere p = d.stands p ∨ d.isLink p = true := by
  unfold leadsSomewhere stands isLink
  rcases resolve_keepsOr (d := d) p with hkept | ⟨l, target, hkept⟩
  · rw [hkept]
    exact .inl rfl
  · rw [hkept]
    exact .inr rfl

theorem stands_of_isLink (h : d.isLink p = true) : d.stands p = true := by
  unfold isLink at h
  unfold stands
  split at h
  · rename_i hkept
    rw [hkept]
  · cases h

theorem leadsSomewhere_of_not_stands (h : d.stands p = false) : d.leadsSomewhere p = false := by
  rcases d.leadsSomewhere_eq_or p with heq | hlink
  · rw [heq, h]
  · rw [stands_of_isLink hlink] at h
    cases h

theorem leadsSomewhere_iff_not_dangles (h : d.stands p = true) : d.leadsSomewhere p = true ↔ ¬ d.Dangles p := by
  unfold Dangles
  rcases d.leadsSomewhere_eq_or p with heq | hlink
  · simp [heq, h]
  · simp [hlink]

end Disk

/-! ## Reports of a rename -/

/-- How a system reports a rename. -/
inductive RenameReport where
  | whole
  /-- The source and the target have a notice each. -/
  | bySides
  | withoutSides
  deriving DecidableEq, Repr

namespace RenameReport

/-- The notices of a rename. -/
def notices (source target : Path) : RenameReport → List Notice
  | .whole => [⟨.renamed .both, [source, target]⟩]
  | .bySides => [⟨.renamed .source, [source]⟩, ⟨.renamed .target, [target]⟩]
  | .withoutSides => [⟨.renamed .unknown, [source, target]⟩]

/-- The mutations that a rename is told to be, on the disk as it is afterwards. -/
def told (d : Disk) (source target : Path) (r : RenameReport) : List Mutation :=
  (r.notices source target).flatMap (Notice.mutations d)

variable {d : Disk} {source target : Path}

theorem told_of_sides {r : RenameReport} (h : r ≠ .withoutSides) :
    r.told d source target = [.deleted (.file source), .created (.probe d target)] := by
  cases r with
  | whole => rfl
  | bySides => rfl
  | withoutSides => exact absurd rfl h

theorem told_withoutSides (gone : d.stands source = false) :
    withoutSides.told d source target =
      [.deleted (.file source),
        if d.leadsSomewhere target then .created (.probe d target) else .deleted (.file target)] := by
  have hsource : Notice.ofUnsidedRename d source = .deleted (.file source) := by
    rw [Notice.ofUnsidedRename, Disk.leadsSomewhere_of_not_stands gone, if_neg Bool.false_ne_true]
  show [Notice.ofUnsidedRename d source, Notice.ofUnsidedRename d target] = _
  rw [hsource, Notice.ofUnsidedRename]

/-- A rename after which nothing stands at its source and something at its target. However it is reported, it is told
that the source has gone and that the target has come, which is looked at on the disk; but of a target that is a link
which leads nowhere it is told, if it is reported without sides, that it has gone. -/
theorem told_alike_iff (d : Disk) (source target : Path) (gone : d.stands source = false)
    (there : d.stands target = true) :
    (∀ r : RenameReport, r ≠ .withoutSides →
      r.told d source target = [.deleted (.file source), .created (.probe d target)]) ∧
    ((∀ r : RenameReport, r.told d source target = [.deleted (.file source), .created (.probe d target)]) ↔
      ¬ d.Dangles target) ∧
    (d.Dangles target →
      withoutSides.told d source target = [.deleted (.file source), .deleted (.file target)]) := by
  refine ⟨fun r => told_of_sides, ⟨fun alike dangles => ?_, fun leads r => ?_⟩, fun dangles => ?_⟩
  · have hunsided := alike .withoutSides
    rw [told_withoutSides gone, dangles.2] at hunsided
    simp at hunsided
  · by_cases hr : r = .withoutSides
    · rw [hr, told_withoutSides gone, if_pos ((Disk.leadsSomewhere_iff_not_dangles there).2 leads)]
    · exact told_of_sides hr
  · rw [told_withoutSides gone, dangles.2, if_neg Bool.false_ne_true]

/-- A file tree with the links `/t` to the directory `/u` and `/l` to nowhere. -/
def linkTree : Disk :=
  ⟨[], [([[116]], .link ⟨[47, 117]⟩), ([[108]], .link ⟨[47, 118]⟩), ([[117]], .directory)]⟩

/-- The link `/t` that has been renamed from `/s` is told to have come, as a directory. -/
theorem told_alike_link :
    linkTree.stands ⟨[47, 115]⟩ = false ∧ linkTree.stands ⟨[47, 116]⟩ = true ∧
      ∀ r : RenameReport, r.told linkTree ⟨[47, 115]⟩ ⟨[47, 116]⟩ =
        [.deleted (.file ⟨[47, 115]⟩), .created (.directory ⟨[47, 116]⟩)] := by
  have gone : linkTree.stands ⟨[47, 115]⟩ = false := by decide
  have there : linkTree.stands ⟨[47, 116]⟩ = true := by decide
  have hprobe : Entry.probe linkTree ⟨[47, 116]⟩ = .directory ⟨[47, 116]⟩ := by decide
  refine ⟨gone, there, ?_⟩
  rw [← hprobe]
  exact (told_alike_iff linkTree _ _ gone there).2.1.2 (by decide)

/-- The link `/l` that has been renamed from `/s` is told to have gone, too, if the rename is reported without sides. -/
theorem dangling_link_told_gone :
    linkTree.stands ⟨[47, 115]⟩ = false ∧ linkTree.stands ⟨[47, 108]⟩ = true ∧
      whole.told linkTree ⟨[47, 115]⟩ ⟨[47, 108]⟩ =
        [.deleted (.file ⟨[47, 115]⟩), .created (.file ⟨[47, 108]⟩)] ∧
      bySides.told linkTree ⟨[47, 115]⟩ ⟨[47, 108]⟩ =
        [.deleted (.file ⟨[47, 115]⟩), .created (.file ⟨[47, 108]⟩)] ∧
      withoutSides.told linkTree ⟨[47, 115]⟩ ⟨[47, 108]⟩ =
        [.deleted (.file ⟨[47, 115]⟩), .deleted (.file ⟨[47, 108]⟩)] := by
  decide

end RenameReport

end ChangeRelay
