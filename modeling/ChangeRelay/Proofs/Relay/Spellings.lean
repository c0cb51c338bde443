/-
Answers that agree on spellings. What is known about metadata when a mutation is taken depends on all that has
been asked before; but if the answers are the same for all spellings of a path that are met, it does not
matter what has been asked. Then every mutation comes to the same changes as if it were the only one
(`SpellingsAgree.changes_eq`).
-/
import ChangeRelay.Proofs.Relay.Contents

namespace ChangeRelay

namespace Answers

variable {a : Answers} {d : Disk} {x : Expander} {projects : List ProjectId} {classify : Classifier}
  {es asked : List Entry} {m : Mutation} {ms : List Mutation} {k : ChangeKind} {e : Entry}

/-! ## Entries that are met -/

/-- The entries that are looked at for a mutation: the one that it is about, if it counts, and the files that
this one stands for. -/
def concernedBy (d : Disk) (x : Expander) (classify : Classifier) (m : Mutation) : List Entry :=
  match classify m with
  | .counts k => m.primary k :: x.files d (m.primary k)
  | _ => []

/-- The entries that are looked at for some mutations. -/
def concerned (d : Disk) (x : Expander) (classify : Classifier) (ms : List Mutation) : List Entry :=
  ms.flatMap (concernedBy d x classify)

theorem concerned_subset {part : List Mutation} (hpart : part ⊆ ms) :
    concerned d x classify part ⊆ concerned d x classify ms := by
  intro e he
  obtain ⟨m, hm, he⟩ := List.mem_flatMap.1 he
  exact List.mem_flatMap.2 ⟨m, hpart hm, he⟩

/-! ## One mutation at a time -/

/-- The changes that a mutation comes to by itself. -/
def changesBy (a : Answers) (d : Disk) (x : Expander) (projects : List ProjectId) (classify : Classifier)
    (m : Mutation) : List Change :=
  match classify m with
  | .counts k => (a.ofEntry d x projects [] k (m.primary k)).2
  | _ => []

/-- What an entry comes to does not depend on what has been asked. -/
theorem SpellingsAgree.ofEntry_eq (agree : a.SpellingsAgree es) (hasked : asked ⊆ es) (he : e ∈ es)
    (hfiles : x.files d e ⊆ es) :
    (a.ofEntry d x projects asked k e).2 = (a.ofEntry d x projects [] k e).2 := by
  unfold ofEntry target?
  rw [agree.countsAsMetadata_eq hasked he, agree.countsAsMetadata_eq (List.nil_subset _) he]
  split
  · rfl
  · rename_i o ho
    refine List.filterMap_congr fun f hf => ?_
    have hfound : a.found d x o e ⊆ es := fun g hg => hfiles (found_subset o e hg)
    have hnow : e :: (a.found d x o e).filter (fun f => !f.isDirectory) ⊆ es :=
      List.cons_subset.2 ⟨he, fun g hg => hfound (List.mem_filter.1 hg).1⟩
    rw [agree.change?_eq (List.append_subset.2 ⟨hasked, hnow⟩) (hfound hf),
      agree.change?_eq (List.append_subset.2 ⟨List.nil_subset _, hnow⟩) (hfound hf)]

/-- Mutations come to the changes that they come to one by one. -/
theorem SpellingsAgree.changes_eq (agree : a.SpellingsAgree es) :
    ∀ {ms : List Mutation} {asked : List Entry}, asked ⊆ es → concerned d x classify ms ⊆ es →
      a.changes d x projects classify asked ms = ms.flatMap (a.changesBy d x projects classify)
  | [], _, _, _ => rfl
  | m :: ms, asked, hasked, hms => by
    have hms : concernedBy d x classify m ++ concerned d x classify ms ⊆ es := hms
    obtain ⟨hm, hms⟩ := List.append_subset.1 hms
    rw [List.flatMap_cons]
    by_cases hcounts : ∃ k, classify m = .counts k
    · obtain ⟨k, hcounts⟩ := hcounts
      have hby : a.changesBy d x projects classify m = (a.ofEntry d x projects [] k (m.primary k)).2 := by
        rw [changesBy, hcounts]
      rw [concernedBy, hcounts] at hm
      obtain ⟨hprimary, hfiles⟩ := List.cons_subset.1 hm
      have hnow : (a.ofEntry d x projects asked k (m.primary k)).1 ⊆ es := by
        intro g hg
        rcases mem_ofEntry_fst hg with rfl | hg
        · exact hprimary
        · exact hfiles hg
      rw [changes_of_counts hcounts, agree.ofEntry_eq hasked hprimary hfiles, hby,
        agree.changes_eq (List.append_subset.2 ⟨hasked, hnow⟩) hms]
    · have hby : a.changesBy d x projects classify m = [] := by
        unfold changesBy
        split
        · exact absurd ⟨_, ‹_›⟩ hcounts
        · rfl
      rw [changes_of_not_counts fun k hk => hcounts ⟨k, hk⟩, hby, List.nil_append, agree.changes_eq hasked hms]

end Answers
end ChangeRelay
