/-
Grouping changes by module. The groups of a list of changes are there to be read off it: the modules
in the order in which they come first, each with all changes to it. To add a change to such a batch
is to add it at the end of the list (`add_ofChanges`). No module of a grouped batch is the same as
another, no group is empty, and the groups hold as many changes as there are.
-/
import ChangeRelay.Proofs.Path.Components
import ChangeRelay.Relay.Batch
import Mathlib.Data.List.Basic
import Mathlib.Data.List.Induction

namespace ChangeRelay

namespace SourceModule

theorem Same.refl (m : SourceModule) : m.Same m := ⟨rfl, rfl, rfl⟩

theorem Same.symm {m n : SourceModule} (h : m.Same n) : n.Same m :=
  ⟨h.1.symm, h.2.1.symm, h.2.2.symm⟩

theorem Same.trans {m n o : SourceModule} (h : m.Same n) (h' : n.Same o) : m.Same o :=
  ⟨h.1.trans h'.1, h.2.1.trans h'.2.1, h.2.2.trans h'.2.2⟩

/-! ## First occurrences -/

/-- The modules of a list that are the same as none before them. -/
def firsts : List SourceModule → List SourceModule
  | [] => []
  | m :: ms => m :: (firsts ms).filter fun n => !decide (n.Same m)

theorem mem_of_mem_firsts : ∀ {ms : List SourceModule} {m : SourceModule}, m ∈ firsts ms → m ∈ ms
  | _ :: ms, m, h => by
    rcases List.mem_cons.1 h with rfl | h
    · exact List.mem_cons_self
    · exact List.mem_cons_of_mem _ (mem_of_mem_firsts (List.mem_filter.1 h).1)

/-- Every module of a list is the same as one of the first ones. -/
theorem exists_mem_firsts : ∀ {ms : List SourceModule} {m : SourceModule}, m ∈ ms →
    ∃ n ∈ firsts ms, n.Same m
  | o :: ms, m, h => by
    by_cases ho : o.Same m
    · exact ⟨o, List.mem_cons_self, ho⟩
    · rcases List.mem_cons.1 h with rfl | h
      · exact absurd (Same.refl m) ho
      · obtain ⟨n, hn, hs⟩ := exists_mem_firsts h
        refine ⟨n, List.mem_cons_of_mem _ (List.mem_filter.2 ⟨hn, ?_⟩), hs⟩
        simpa using fun hno : n.Same o => ho (hno.symm.trans hs)

theorem firsts_pairwise : ∀ ms : List SourceModule, (firsts ms).Pairwise fun m n => ¬ m.Same n
  | [] => .nil
  | m :: ms => by
    refine .cons (fun n hn => ?_) ((firsts_pairwise ms).filter _)
    have := (List.mem_filter.1 hn).2
    simp only [Bool.not_eq_true', decide_eq_false_iff_not] at this
    exact fun h => this h.symm

/-- A module at the end of a list is a first one if it is the same as none before it. -/
theorem firsts_append_singleton (m : SourceModule) : ∀ ms : List SourceModule,
    firsts (ms ++ [m]) = if ∃ n ∈ ms, n.Same m then firsts ms else firsts ms ++ [m]
  | [] => by simp [firsts]
  | n :: ms => by
    rw [List.cons_append, firsts, firsts_append_singleton m ms, firsts]
    by_cases hn : n.Same m
    · have hm : m.Same n := hn.symm
      have : ∃ o ∈ n :: ms, o.Same m := ⟨n, List.mem_cons_self, hn⟩
      rw [if_pos this]
      split
      · rfl
      · rw [List.filter_append]; simp [hm]
    · have hm : ¬ m.Same n := fun h => hn h.symm
      by_cases hms : ∃ o ∈ ms, o.Same m
      · rw [if_pos hms, if_pos (hms.imp fun o ho => ⟨List.mem_cons_of_mem _ ho.1, ho.2⟩)]
      · rw [if_neg hms, if_neg (by simpa [hn] using hms), List.filter_append]
        simp [hm]

/-- The first ones of some kind are the first ones of those of that kind, if it does not tell modules apart that
are the same. -/
theorem filter_firsts {P : SourceModule → Bool} (hP : ∀ m n, m.Same n → P m = P n) :
    ∀ ms : List SourceModule, (firsts ms).filter P = firsts (ms.filter P)
  | [] => rfl
  | m :: ms => by
    have ih := filter_firsts hP ms
    rw [firsts]
    cases hm : P m with
    | true =>
      rw [List.filter_cons_of_pos hm, List.filter_cons_of_pos hm, List.filter_comm, ih]
      rfl
    | false =>
      have hother : ∀ n ∈ (firsts ms).filter P, (!decide (n.Same m)) = true := fun n hn => by
        have hn : P n = true := (List.mem_filter.1 hn).2
        simpa using fun same : n.Same m => by rw [hP n m same, hm] at hn; cases hn
      rw [List.filter_cons_of_neg (by simp [hm]), List.filter_cons_of_neg (by simp [hm]), List.filter_comm,
        List.filter_eq_self.2 hother, ih]

end SourceModule

namespace Batch

/-- The batch of a list of changes: the modules in the order in which they come first, each with
all changes to it. -/
def ofChanges (cs : List Change) : Batch :=
  ⟨(SourceModule.firsts (cs.map (·.module))).map fun m =>
    (m, cs.filter fun c => decide (c.module.Same m))⟩

/-! ## Adding a change -/

theorem alter_of_forall_not_same (m : SourceModule) (f : List Change → List Change) :
    ∀ {gs : List (SourceModule × List Change)}, (∀ g ∈ gs, ¬ g.1.Same m) →
      alter m f gs = gs ++ [(m, f [])]
  | [], _ => rfl
  | (n, cs) :: gs, h => by
    rw [alter, if_neg (h (n, cs) List.mem_cons_self),
      alter_of_forall_not_same m f fun g hg => h g (List.mem_cons_of_mem _ hg)]
    rfl

/-- Where the groups are of different modules, it is the one group of the module that is altered. -/
theorem alter_of_exists_same (m : SourceModule) (f : List Change → List Change) :
    ∀ {gs : List (SourceModule × List Change)}, gs.Pairwise (fun g g' => ¬ g.1.Same g'.1) →
      (∃ g ∈ gs, g.1.Same m) →
      alter m f gs = gs.map fun g => if g.1.Same m then (g.1, f g.2) else g
  | (n, cs) :: gs, hp, h => by
    obtain ⟨hn, hp⟩ := List.pairwise_cons.1 hp
    by_cases hs : n.Same m
    · have hgs : ∀ g ∈ gs, (if g.1.Same m then (g.1, f g.2) else g) = g := fun g hg =>
        if_neg fun hgm => hn g hg (hs.trans hgm.symm)
      rw [alter, if_pos hs, List.map_cons, if_pos hs, List.map_congr_left hgs, List.map_id']
    · rw [alter, if_neg hs, List.map_cons, if_neg hs]
      congr 1
      refine alter_of_exists_same m f hp ?_
      obtain ⟨g, hg, hgm⟩ := h
      rcases List.mem_cons.1 hg with rfl | hg
      · exact absurd hgm hs
      · exact ⟨g, hg, hgm⟩

theorem ofChanges_pairwise (cs : List Change) :
    (ofChanges cs).groups.Pairwise fun g g' => ¬ g.1.Same g'.1 :=
  List.pairwise_map.2 (SourceModule.firsts_pairwise _)

/-- A change added at the end of the group of its module is a change at the end of the list. -/
theorem add_ofChanges (cs : List Change) (c : Change) :
    (ofChanges cs).add c.module c = ofChanges (cs ++ [c]) := by
  have hfilter (n : SourceModule) : (cs ++ [c]).filter (fun c => decide (c.module.Same n)) =
      cs.filter (fun c => decide (c.module.Same n)) ++ if c.module.Same n then [c] else [] := by
    rw [List.filter_append, List.filter_cons, List.filter_nil]; simp only [decide_eq_true_eq]
  refine congrArg mk ?_
  rw [List.map_append, List.map_singleton, SourceModule.firsts_append_singleton]
  by_cases hc : ∃ n ∈ cs.map (·.module), n.Same c.module
  · rw [if_pos hc, alter_of_exists_same _ _ (ofChanges_pairwise cs), ofChanges, List.map_map]
    · refine List.map_congr_left fun n hn => ?_
      rw [hfilter]
      by_cases hs : n.Same c.module
      · simp [hs, hs.symm]
      · have hs' : ¬ c.module.Same n := fun h => hs h.symm
        simp [hs, hs']
    · obtain ⟨n, hn, hnc⟩ := hc
      obtain ⟨o, ho, hon⟩ := SourceModule.exists_mem_firsts hn
      exact ⟨_, List.mem_map_of_mem ho, hon.trans hnc⟩
  · have hne : ∀ n ∈ SourceModule.firsts (cs.map (·.module)), ¬ n.Same c.module := fun n hn hnc =>
      hc ⟨n, SourceModule.mem_of_mem_firsts hn, hnc⟩
    rw [if_neg hc, alter_of_forall_not_same, ofChanges, List.map_append]
    · congr 1
      · refine List.map_congr_left fun n hn => ?_
        rw [hfilter, if_neg fun h => hne n hn h.symm, List.append_nil]
      · have hnil : cs.filter (fun d => decide (d.module.Same c.module)) = [] := by
          refine List.filter_eq_nil_iff.2 fun d hd => ?_
          simpa using fun h => hc ⟨_, List.mem_map_of_mem hd, h⟩
        rw [List.map_singleton, hfilter, hnil, if_pos (.refl _)]
    · intro g hg
      obtain ⟨n, hn, rfl⟩ := List.mem_map.1 hg
      exact hne n hn

/-! ## What is in the groups -/

/-- A group holds all changes to its module, of which there is one at least. -/
theorem mem_ofChanges {cs : List Change} {g : SourceModule × List Change}
    (hg : g ∈ (ofChanges cs).groups) :
    g.2 = cs.filter (fun c => decide (c.module.Same g.1)) ∧ g.2 ≠ [] := by
  obtain ⟨m, hm, rfl⟩ := List.mem_map.1 hg
  refine ⟨rfl, fun hnil => ?_⟩
  obtain ⟨c, hc, rfl⟩ := List.mem_map.1 (SourceModule.mem_of_mem_firsts hm)
  have := List.filter_eq_nil_iff.1 hnil c hc
  exact this (decide_eq_true (.refl _))

/-- A change is in a group, that of its module. -/
theorem exists_mem_ofChanges {cs : List Change} {c : Change} (hc : c ∈ cs) :
    ∃ g ∈ (ofChanges cs).groups, c ∈ g.2 ∧ c.module.Same g.1 := by
  obtain ⟨m, hm, hs⟩ := SourceModule.exists_mem_firsts (List.mem_map_of_mem (f := (·.module)) hc)
  exact ⟨_, List.mem_map_of_mem hm, List.mem_filter.2 ⟨hc, decide_eq_true hs.symm⟩, hs.symm⟩

/-- The groups of some kind of module are those of the changes to such modules. -/
theorem filter_groups_ofChanges (P : SourceModule → Bool) (hP : ∀ m n, m.Same n → P m = P n) (cs : List Change) :
    ((ofChanges cs).groups.filter fun g => P g.1) = (ofChanges (cs.filter fun c => P c.module)).groups := by
  have hmodules : (cs.filter fun c => P c.module).map (·.module) = (cs.map (·.module)).filter P := by
    rw [List.filter_map]
    rfl
  unfold ofChanges
  dsimp only
  rw [List.filter_map, hmodules, ← SourceModule.filter_firsts hP]
  refine List.map_congr_left fun m hm => Prod.ext rfl ?_
  have hPm : P m = true := (List.mem_filter.1 hm).2
  show cs.filter _ = (cs.filter _).filter _
  rw [List.filter_filter]
  refine List.filter_congr fun c _ => ?_
  by_cases same : c.module.Same m
  · simp [same, hP _ _ same, hPm]
  · simp [same]

/-- The changes that a batch lists for a module. -/
def changesTo (b : Batch) (m : SourceModule) : List Change :=
  match b.groups.find? fun g => decide (g.1.Same m) with
  | some g => g.2
  | none => []

theorem changesTo_ofChanges (cs : List Change) (m : SourceModule) :
    (ofChanges cs).changesTo m = cs.filter fun c => decide (c.module.Same m) := by
  unfold changesTo
  cases hfind : (ofChanges cs).groups.find? fun g => decide (g.1.Same m) with
  | some g =>
    have hsame : g.1.Same m := by simpa using List.find?_some hfind
    obtain ⟨hg, -⟩ := mem_ofChanges (List.mem_of_find?_eq_some hfind)
    refine hg.trans (List.filter_congr fun c _ => decide_eq_decide.2 ?_)
    exact ⟨fun h => h.trans hsame, fun h => h.trans hsame.symm⟩
  | none =>
    refine (List.filter_eq_nil_iff.2 fun c hc => ?_).symm
    obtain ⟨g, hg, -, hs⟩ := exists_mem_ofChanges hc
    have hother : ¬ g.1.Same m := by simpa using List.find?_eq_none.1 hfind g hg
    simpa using fun h : c.module.Same m => hother (hs.symm.trans h)

/-- More changes leave those that are listed for a module in place. -/
theorem changesTo_prefix (cs more : List Change) (m : SourceModule) :
    (ofChanges cs).changesTo m <+: (ofChanges (cs ++ more)).changesTo m := by
  rw [changesTo_ofChanges, changesTo_ofChanges, List.filter_append]
  exact List.prefix_append _ _

/-- Changes to a module are listed for it, and for no module that is not the same. -/
theorem changesTo_append {cs own : List Change} {m : SourceModule} (hown : ∀ c ∈ own, c.module = m)
    (n : SourceModule) : (ofChanges (cs ++ own)).changesTo n =
      (ofChanges cs).changesTo n ++ if m.Same n then own else [] := by
  rw [changesTo_ofChanges, changesTo_ofChanges, List.filter_append]
  congr 1
  split
  · rename_i hs
    exact List.filter_eq_self.2 fun c hc => decide_eq_true (hown c hc ▸ hs)
  · rename_i hs
    exact List.filter_eq_nil_iff.2 fun c hc h => hs (hown c hc ▸ of_decide_eq_true h)

theorem length_alter (m : SourceModule) (c : Change) : ∀ gs : List (SourceModule × List Change),
    ((alter m (· ++ [c]) gs).flatMap (·.2)).length = (gs.flatMap (·.2)).length + 1
  | [] => rfl
  | (n, cs) :: gs => by
    rw [alter]
    split
    · simp only [List.flatMap_cons, List.length_append, List.length_singleton]; omega
    · simp only [List.flatMap_cons, List.length_append, length_alter m c gs]; omega

/-- Every change is in one group, and in no more. -/
theorem size_ofChanges (cs : List Change) : (ofChanges cs).size = cs.length := by
  induction cs using List.reverseRecOn with
  | nil => rfl
  | append_singleton cs c ih =>
    rw [← add_ofChanges, List.length_append, ← ih]
    exact length_alter c.module c _

end Batch
end ChangeRelay
