/-
What is gathered, for every host. Nothing is gathered exactly if one of the mutations cannot be
classified (`gather_eq_none_iff`), and whatever the host answers, the batch is that of some list of
changes, one group for each module and none empty (`gather_grouped`). Where the answers do not
change while changes are gathered, the list is that of `Answers.changes` (`gather_eq_ofChanges`).
-/
import ChangeRelay.Host.Watched
import ChangeRelay.Proofs.Relay.Contributions

namespace ChangeRelay

variable {σ β : Type}

/-! ## Every host -/

/-- The batch is that of some changes. -/
def Batch.Grouped (b : Batch) : Prop := ∃ cs, b = .ofChanges cs

theorem Expansion.foldObserved_gives {P : β → Prop} {goOn : StateM σ Bool} {visited : Visit → StateM σ Unit}
    {f : β → Entry → StateM σ β} (hf : ∀ b e, P b → Gives P (f b e)) (x : Expansion) {b : β} (hb : P b) :
    Gives (fun r => P r.1) (x.foldObserved goOn visited f b) := by
  obtain ⟨i, ahead, interrupted⟩ := x
  cases interrupted with
  | true => exact .pure hb
  | false =>
    show Gives _ (foldAhead i goOn visited f ahead b)
    induction ahead generalizing b with
    | nil => exact .of_bind fun yes => .pure hb
    | cons v ahead ih =>
      unfold foldAhead
      refine .of_bind fun yes => ?_
      cases yes with
      | false => exact .pure hb
      | true =>
        simp only [if_true]
        refine .of_bind fun _ => ?_
        cases v.included? i with
        | none => exact ih hb
        | some e => exact (hf b e hb).bind fun b hb => ih hb

namespace Gathering

variable (o : Observer σ) (h : Host σ) (d : Disk) (x : Expander) (projects : List ProjectId)
  (classify : Classifier)

theorem addFile_grouped (m : SourceModule) (k : ChangeKind) (g : Gathering) (e : Entry)
    (hg : g.batch.Grouped) : Gives (fun g => g.batch.Grouped) (addFile o h m k g e) := by
  unfold addFile
  refine .of_bind fun r => ?_
  dsimp only
  split
  · rename_i c _ hc
    obtain ⟨cs, hcs⟩ := hg
    refine .of_bind fun _ => .pure ⟨cs ++ [c], ?_⟩
    show g.batch.add m c = _
    rw [hcs, ← (Change.of_ofEntry? hc).1, Batch.add_ofChanges]
  · exact .pure hg

theorem addEntry_grouped (k : ChangeKind) (g : Gathering) (e : Entry) (hg : g.batch.Grouped) :
    Gives (fun g => g.batch.Grouped) (g.addEntry o h d x projects k e) := by
  unfold addEntry
  refine .of_bind fun r => ?_
  dsimp only
  split
  · exact .pure hg
  · refine .of_bind fun m? => ?_
    cases m? with
    | none => exact .pure hg
    | some m =>
      refine .of_bind fun _ => ?_
      exact (Expansion.foldObserved_gives (addFile_grouped o h m k) _ (by exact hg)).bind fun r hr => .pure hr

/-- Whatever the host answers, all is gathered if all mutations can be classified, and nothing if
one cannot; and what is gathered is grouped. -/
theorem addObserved_gives : ∀ (ms : List Mutation) (g : Gathering), g.batch.Grouped →
    Gives (fun g? => (g? = none ↔ ∃ m ∈ ms, classify m = .failed) ∧ ∀ g ∈ g?, g.batch.Grouped)
      (addObserved o h d x projects classify ms g)
  | [], g, hg => .pure ⟨by simp, by simpa using hg⟩
  | m :: ms, g, hg => by
    unfold addObserved
    refine .of_bind fun _ => ?_
    cases hm : classify m with
    | failed => exact .pure ⟨by simp [hm], by simp⟩
    | ignored => simpa [hm] using addObserved_gives ms g hg
    | counts k =>
      refine (addEntry_grouped o h d x projects k g _ hg).bind fun g hg => ?_
      simpa [hm] using addObserved_gives ms g hg

end Gathering

theorem gather_gives (h : Host σ) (d : Disk) (x : Expander) (projects : List ProjectId)
    (classify : Classifier) (ms : List Mutation) :
    Gives (fun b? => (b? = none ↔ ∃ m ∈ ms, classify m = .failed) ∧ ∀ b ∈ b?, b.Grouped)
      (gather h d x projects classify ms) := by
  rw [gather_eq]
  refine (Gathering.addObserved_gives .silent h d x projects classify ms .empty ⟨[], rfl⟩).bind
    fun g? hg => .pure ?_
  cases g? <;> simpa using hg

/-- Nothing is gathered exactly if one of the mutations cannot be classified. -/
theorem gather_eq_none_iff (h : Host σ) (d : Disk) (x : Expander) (projects : List ProjectId)
    (classify : Classifier) (ms : List Mutation) (s : σ) :
    ((gather h d x projects classify ms).run s).1 = none ↔ ∃ m ∈ ms, classify m = .failed :=
  (gather_gives h d x projects classify ms s).1

/-- What is gathered is the batch of some changes. -/
theorem gather_grouped {h : Host σ} {d : Disk} {x : Expander} {projects : List ProjectId}
    {classify : Classifier} {ms : List Mutation} {s : σ} {b : Batch}
    (hb : ((gather h d x projects classify ms).run s).1 = some b) : b.Grouped :=
  (gather_gives h d x projects classify ms s).2 b hb

/-! ## Answers that do not change -/

/-- A host whose replies are all of fixed answers gathers as these answers do. -/
theorem gather_of_allOf {h : Host σ} {d : Disk} {x : Expander} {projects : List ProjectId}
    {classify : Classifier} {ms : List Mutation} {s : σ} {a : Answers}
    (still : AllOf a ((gather h.recorded d x projects classify ms).run (s, [])).2.2) :
    ((gather h d x projects classify ms).run s).1 = ((gather a.host d x projects classify ms).run ()).1 :=
  value_of_allOf (fun h => gather h d x projects classify ms)
    (fun hh => gather_inStep hh.gathering d x projects classify ms) still

/-- Gathering from a host whose answers do not change meanwhile. Unless a mutation cannot be
classified, the batch is that of the changes that are read off the answers: each module stands in it
once, where it comes first, with all changes to it in their order; no group is empty and no change
is lost or repeated; and each change is to the module that its group is of, of the kind of a
mutation that has come to it. -/
theorem gather_eq_ofChanges (h : Host σ) (d : Disk) (x : Expander) (projects : List ProjectId)
    (classify : Classifier) (ms : List Mutation) (s : σ) (a : Answers)
    (still : AllOf a ((gather h.recorded d x projects classify ms).run (s, [])).2.2) :
    let cs := a.changes d x projects classify [] ms
    ((gather h d x projects classify ms).run s).1 =
        (if ∃ m ∈ ms, classify m = .failed then none else some (.ofChanges cs)) ∧
      (Batch.ofChanges cs).groups.Pairwise (fun g g' => ¬ g.1.Same g'.1) ∧
      (Batch.ofChanges cs).size = cs.length ∧
      ∀ g ∈ (Batch.ofChanges cs).groups,
        g.2 = cs.filter (fun c => decide (c.module.Same g.1)) ∧ g.2 ≠ [] ∧
        ∀ c ∈ g.2, c.module.Same g.1 ∧ ∃ m ∈ ms, classify m = .counts c.kind ∧
          ∃ f ∈ x.files d (m.primary c.kind), Change.ofEntry? c.module f c.kind = some c := by
  intro cs
  refine ⟨?_, Batch.ofChanges_pairwise cs, Batch.size_ofChanges cs, fun g hg => ?_⟩
  -- what is gathered does not depend on more of the host than the answers that it gave
  · split
    · rename_i hf
      exact (gather_eq_none_iff h d x projects classify ms s).2 hf
    · rename_i hf
      rw [gather_of_allOf still, gather_answers a d x projects classify ms fun m hm hc => hf ⟨m, hm, hc⟩]
      rfl
  · obtain ⟨hcs, hne⟩ := Batch.mem_ofChanges hg
    refine ⟨hcs, hne, fun c hc => ?_⟩
    rw [hcs] at hc
    obtain ⟨hc, hs⟩ := List.mem_filter.1 hc
    obtain ⟨m, hm, hk, f, hf, asked, -, hfc⟩ := Answers.mem_changes hc
    exact ⟨of_decide_eq_true hs, m, hm, hk, f, hf, (Answers.of_change? hfc).2.2⟩

/-- The tree of a directory `/w` with the files `/w/a` and `/w/b.iml`. -/
def Disk.sample : Disk :=
  ⟨[], [([[119]], .directory), ([[119], [97]], .file []), ([[119], [98, 46, 105, 109, 108]], .file [])]⟩

/-- The directory `/w` was created, and `/w/a` modified, which is spelled `/w//a`. -/
def Mutation.samples : List Mutation :=
  [.created (.directory ⟨[47, 119]⟩), .modified (.file ⟨[47, 119, 47, 47, 97]⟩)]

/-- A host that counts the questions changes its state all the time, but none of its answers. -/
theorem gather_eq_ofChanges_watched :
    AllOf Registry.sample.answers ((gather WatchedRegistry.host.recorded .sample (.ofInclusion .all) [⟨"p"⟩]
      Phase.settled.classifier Mutation.samples).run (.plain .sample, [])).2.2 ∧
    (((gather WatchedRegistry.host .sample (.ofInclusion .all) [⟨"p"⟩] Phase.settled.classifier
      Mutation.samples).run (.plain .sample)).1.map Batch.size) = some 2 := by
  have still : AllOf Registry.sample.answers ((gather WatchedRegistry.host.recorded .sample (.ofInclusion .all)
      [⟨"p"⟩] Phase.settled.classifier Mutation.samples).run (.plain .sample, [])).2.2 := by decide +kernel
  refine ⟨still, ?_⟩
  rw [(gather_eq_ofChanges _ _ _ _ _ _ _ _ still).1]
  decide +kernel

end ChangeRelay
